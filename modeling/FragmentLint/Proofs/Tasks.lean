import FragmentLint.Proofs.FailClosed

/-!
# What a run asks the parsers

Of everything that a run does, only the pieces of code about which a parser is asked reach the
state that the rules share. They come in the order of the documents, in each document in the order
of the rules, and for each rule in the order of the fragments. A rule without a mode of its own for
checks without a parser asks about its fragments in every mode. The state behind the documents is
the one behind these tasks, whatever the verdicts are.
-/
namespace FragmentLint

namespace Pipeline

variable {σ : Type}

def asks (p : Pipeline) (mode : Mode) : Bool :=
  !(mode = .basic && p.hasBasic)

theorem run_of_asks {p : Pipeline} {mode : Mode} (h : p.asks mode = true) (c : Checker σ)
    (fragments : List Fragment) (s : σ) :
    p.run c mode fragments s = p.run c .full fragments s := by
  have hmode : ¬ (mode = .basic ∧ p.hasBasic) := by
    rintro ⟨hbasic, hchecks⟩
    simp [asks, hbasic, hchecks] at h
  have hfull : ¬ (Mode.full = .basic ∧ p.hasBasic) := by simp
  simp only [run, if_neg hmode, if_neg hfull]

/-- A run that asks the parser leaves the state behind the codes of its fragments. -/
theorem behind?_of_run {p : Pipeline} {mode : Mode} (h : p.asks mode = true) {c : Checker σ}
    {fragments : List Fragment} {s t : σ} {events : List Event}
    (hrun : p.run c mode fragments s = some (events, t)) :
    c.behind? (fragments.filterMap Fragment.asked?) s = some t := by
  rw [run_of_asks h] at hrun
  have hout := p.run_outside c rfl fragments s
  rw [hrun, Option.map_some] at hout
  obtain ⟨⟨vs, u⟩, hvs, heq⟩ := Option.map_eq_some_iff.mp hout.symm
  obtain rfl : u = t := congrArg (fun o => o.2.2) heq
  exact Checker.behind?_of_visits? hvs

/-- A run that does not ask the parser leaves the state as it is. -/
theorem state_of_run_of_not_asks {p : Pipeline} {mode : Mode} (h : p.asks mode = false)
    {c : Checker σ} {fragments : List Fragment} {s t : σ} {events : List Event}
    (hrun : p.run c mode fragments s = some (events, t)) : t = s := by
  have hmode : mode = .basic ∧ p.hasBasic := by simpa [asks] using h
  rw [run, if_pos hmode] at hrun
  exact (Prod.mk.inj (Option.some.inj hrun)).2.symm

end Pipeline

namespace Lint

/-- A piece of code about which a rule asks its parser. -/
structure Task where
  rule : Rule
  options : Options
  code : Text

def Task.check [Host] (site : Site) (t : Task) (s : Shared World) : Option
    (Checked (Shared World)) :=
  (t.rule.checker site t.options).check t.code s

/-- The state behind tasks that are done one after another. There is none if one of them is never
answered. -/
def behind? [Host] (site : Site) : List Task → Shared World → Option (Shared World)
  | [], s => some s
  | task :: tasks, s => (task.check site s).bind fun answer => behind? site tasks answer.state

theorem behind?_append [Host] (site : Site) (tasks more : List Task) (s : Shared World) :
    behind? site (tasks ++ more) s = (behind? site tasks s).bind (behind? site more) := by
  induction tasks generalizing s with
  | nil => rfl
  | cons task tasks ih =>
    rw [List.cons_append, behind?, behind?, Option.bind_assoc]
    simp only [ih]

/-- What holds before any task and is continued by each of them holds behind all of them. -/
theorem behind?_induction [Host] {site : Site} {I : List Task → Shared World → Prop}
    (hstep : ∀ {done task s answer}, I done s → Task.check site task s = some answer →
      I (done ++ [task]) answer.state)
    {tasks : List Task} {s t : Shared World} (hs : I [] s)
    (h : behind? site tasks s = some t) : I tasks t := by
  suffices hall : ∀ done tasks s, I done s → behind? site tasks s = some t →
      I (done ++ tasks) t from hall [] tasks s hs h
  intro done tasks
  induction tasks generalizing done with
  | nil =>
    intro s hs h
    obtain rfl := Option.some.inj h
    rwa [List.append_nil]
  | cons task tasks ih =>
    intro s hs h
    obtain ⟨answer, hcheck, hrest⟩ := Option.bind_eq_some_iff.mp h
    have hall := ih (done ++ [task]) answer.state (hstep hs hcheck) hrest
    rwa [List.append_assoc] at hall

/-- The codes about which a rule asks in the tokens of a document, if it asks. -/
def codesIn (r : Rule) (options : Options) (tokens : List (Token Line)) : List Text :=
  if r.family.pipeline.asks options.mode then
    (r.family.extractor.fragments tokens).filterMap Fragment.asked?
  else []

/-- The tasks of rules in the tokens of a document. -/
def tasksIn (rules : List (Rule × Options)) (tokens : List (Token Line)) : List Task :=
  rules.flatMap fun (r, options) => (codesIn r options tokens).map (Task.mk r options)

def tasks (rules : List (Rule × Options)) (documents : List (Text × Text)) : List Task :=
  documents.flatMap fun (_, text) => tasksIn rules (Markdown.tokenize text)

theorem behind?_map [Host] (site : Site) (r : Rule) (options : Options) (codes : List Text)
    (s : Shared World) :
    behind? site (codes.map (Task.mk r options)) s =
      (r.checker site options).behind? codes s := by
  induction codes generalizing s with
  | nil => rfl
  | cons code codes ih =>
    rw [List.map_cons, behind?, Checker.behind?, Task.check]
    simp only [ih]

theorem behind?_of_run [Host] {site : Site} {r : Rule} {options : Options}
    {tokens : List (Token Line)} {s t : Shared World} {events : List Event}
    (h : r.run options (r.checker site options) tokens s = some (events, t)) :
    behind? site ((codesIn r options tokens).map (Task.mk r options)) s = some t := by
  rw [behind?_map, codesIn]
  cases hasks : r.family.pipeline.asks options.mode with
  | true => exact Pipeline.behind?_of_run hasks h
  | false =>
    rw [Pipeline.state_of_run_of_not_asks hasks h]
    rfl

theorem behind?_of_runRules [Host] {site : Site} {tokens : List (Token Line)}
    {rules : List (Rule × Options)} {s t : Shared World} {entries : List Entry}
    {noted : List Notice} (h : runRules site tokens rules s = some (entries, noted, t)) :
    behind? site (tasksIn rules tokens) s = some t := by
  induction rules generalizing s entries noted with
  | nil =>
    simp only [runRules, Option.some.injEq, Prod.mk.injEq] at h
    exact congrArg some h.2.2
  | cons r rules ih =>
    obtain ⟨events, u, others, more, hrun, hothers, -, -⟩ := runRules_cons_eq_some_iff.mp h
    rw [tasksIn, List.flatMap_cons, behind?_append]
    exact Option.bind_eq_some_iff.mpr ⟨u, behind?_of_run hrun, ih hothers⟩

/-- Linting documents leaves the state behind the tasks of the rules in them. -/
theorem behind?_of_runDocuments [Host] {site : Site} {rules : List (Rule × Options)}
    {documents : List (Text × Text)} {s t : Shared World} {results : List (Text × List Entry)}
    {noted : List Notice} (h : runDocuments site rules documents s = some (results, noted, t)) :
    behind? site (tasks rules documents) s = some t := by
  induction documents generalizing s results noted with
  | nil =>
    simp only [runDocuments, Option.some.injEq, Prod.mk.injEq] at h
    exact congrArg some h.2.2
  | cons d documents ih =>
    obtain ⟨entries, first, u, others, more, hrules, hothers, -, -⟩ :=
      runDocuments_cons_eq_some_iff.mp h
    rw [tasks, List.flatMap_cons, behind?_append]
    exact Option.bind_eq_some_iff.mpr ⟨u, behind?_of_runRules hrules, ih hothers⟩

end Lint

end FragmentLint
