import FragmentLint.Proofs.ArrivalOrder
import FragmentLint.Proofs.StructuralCheck

/-!
# How results are put together

With parsers whose verdicts follow from the code alone, what a rule reports about a document follows
from the tokens of the document, and nothing that was linted before or is linted afterwards matters.
The entries of a document are then those of the rules, one rule after the other, in the order of
their lines; entries of one line keep their order. All this holds behind any tasks that were done
before, as long as each answer leaves a state in which every task is answered as it was laid down.

In the end the shared session is closed. That alone may keep a run from its results: a fault that
came up when the session was started is kept, and is raised again if it is none of a bridge.
-/
namespace FragmentLint

namespace Lint

/-- A list of entries in the order of their lines, in which those of one line are in the order of
another list. -/
structure StableSort (before after : List Entry) : Prop where
  perm : after.Perm before
  ordered : after.Pairwise fun a b => a.line ≤ b.line
  stable : ∀ line, after.filter (·.line = line) = before.filter (·.line = line)

theorem stableSort_sorted (entries : List Entry) : StableSort entries (sorted entries) := by
  have htrans : ∀ a b c : Entry, decide (a.line ≤ b.line) = true →
      decide (b.line ≤ c.line) = true → decide (a.line ≤ c.line) = true := by
    simp only [decide_eq_true_eq]
    intros
    omega
  have htotal : ∀ a b : Entry, (decide (a.line ≤ b.line) || decide (b.line ≤ a.line)) = true := by
    simp only [Bool.or_eq_true, decide_eq_true_eq]
    intros
    omega
  have hperm : (sorted entries).Perm entries := List.mergeSort_perm _ _
  refine ⟨hperm, ?_, ?_⟩
  · have hpairwise := List.pairwise_mergeSort htrans htotal entries
    exact hpairwise.imp of_decide_eq_true
  · -- The entries of a line are in order as they stand, so sorting leaves them so.
    intro line
    have hline : (entries.filter (·.line = line)).Pairwise
        fun a b => decide (a.line ≤ b.line) = true := by
      refine List.pairwise_of_forall_mem_list ?_
      intro a ha b hb
      have ha : a.line = line := by simpa using List.of_mem_filter ha
      have hb : b.line = line := by simpa using List.of_mem_filter hb
      simp [ha, hb]
    have hsublist := List.sublist_mergeSort htrans htotal hline List.filter_sublist
    have hkept := hsublist.filter (·.line = line)
    rw [List.filter_filter] at hkept
    simp only [Bool.and_self] at hkept
    exact (hkept.eq_of_length (hperm.filter _).length_eq.symm).symm

/-- The lines of a stable sort are the lines of the entries, put in order. -/
theorem StableSort.map_line {before after : List Entry} (h : StableSort before after)
    {lines : List Int} (hperm : lines.Perm (before.map Entry.line))
    (hordered : lines.Pairwise (· ≤ ·)) : after.map Entry.line = lines := by
  have hafter : (after.map Entry.line).Pairwise (· ≤ ·) := List.pairwise_map.mpr h.ordered
  refine List.Perm.eq_of_pairwise ?_ hafter hordered ((h.perm.map _).trans hperm.symm)
  intro m n _ _ hmn hnm
  exact Int.le_antisymm hmn hnm

end Lint

namespace Checker

variable {σ : Type}

/-- A parser gives fixed verdicts in all states of a kind, and stays in them. -/
def Steady (c : Checker σ) (I : σ → Prop) (verdict : Text → Verdict) : Prop :=
  ∀ code s, I s → ∃ answer, c.check code s = some answer ∧ answer.verdict = verdict code ∧
    I answer.state

/-- What is found on visits of a parser that gives fixed verdicts follows from the fragments. -/
theorem Steady.visits? {c : Checker σ} {I : σ → Prop} {verdict : Text → Verdict}
    (h : c.Steady I verdict) (p : Pipeline) (parser : Text) (fragments : List Fragment) {s : σ}
    (hs : I s) : ∃ vs t, c.visits? fragments s = some (vs, t) ∧ I t ∧
      vs.filterMap (Visit.finding? p parser) =
        fragments.filterMap (p.expected parser verdict) := by
  induction fragments generalizing s with
  | nil => exact ⟨[], s, rfl, hs, rfl⟩
  | cons f fragments ih =>
    suffices hvisit : ∃ v, c.visit? f s = some v ∧ I v.after ∧
        v.finding? p parser = p.expected parser verdict f by
      obtain ⟨v, hv, hafter, hfound⟩ := hvisit
      obtain ⟨vs, t, hvs, ht, hrest⟩ := ih hafter
      refine ⟨v :: vs, t, by simp [Checker.visits?, hv, hvs], ht, ?_⟩
      rw [List.filterMap_cons, List.filterMap_cons, hfound, hrest]
    cases ha : f.asked? with
    | none =>
      refine ⟨⟨f, s, none⟩, c.visit?_blank ha s, hs, ?_⟩
      rw [Pipeline.expected, Visit.ofVerdict, ha]
      rfl
    | some code =>
      obtain ⟨answer, hcheck, hverdict, hstate⟩ := h code s hs
      refine ⟨⟨f, s, some answer⟩, by rw [c.visit?_asked ha, hcheck]; rfl, hstate, ?_⟩
      simp only [Pipeline.expected, Visit.ofVerdict, Visit.finding?, ha, Option.map_some, hverdict]

end Checker

namespace Pipeline

/-- What a run in a mode finds at a fragment, if the verdict is given by the code alone. -/
def told (p : Pipeline) (mode : Mode) (parser : Text) (verdict : Text → Verdict) (f : Fragment) :
    Option Finding :=
  if p.asks mode then p.expected parser verdict f else p.basicFinding f

/-- A run finds what it is told, and keeps the state of its kind. The parser only has to give fixed
verdicts if it is asked. -/
theorem run_of_steady {σ : Type} {p : Pipeline} {c : Checker σ} {mode : Mode} {I : σ → Prop}
    {verdict : Text → Verdict} (h : p.asks mode = true → c.Steady I verdict)
    (fragments : List Fragment) {s : σ} (hs : I s) : ∃ events t,
      p.run c mode fragments s = some (events, t) ∧ I t ∧
      Event.findings events = fragments.filterMap (p.told mode c.name verdict) := by
  unfold told
  cases hasks : p.asks mode with
  | true =>
    obtain ⟨vs, t, hvs, ht, hfound⟩ := (h hasks).visits? p c.name fragments hs
    have hout := p.run_outside c rfl fragments s
    rw [hvs, Option.map_some] at hout
    obtain ⟨⟨events, u⟩, hrun, heq⟩ := Option.map_eq_some_iff.mp hout
    obtain ⟨hfindings, -, rfl⟩ : Event.findings events = _ ∧ _ ∧ u = t := by
      simpa [outside, outsideOf] using heq
    exact ⟨events, u, by rw [run_of_asks hasks, hrun], ht, by rw [hfindings, hfound]; simp⟩
  | false =>
    have hmode : mode = .basic ∧ p.hasBasic := by simpa [asks] using hasks
    refine ⟨p.runBasic fragments, s, by rw [run, if_pos hmode], hs, ?_⟩
    simp [runBasic]

end Pipeline

namespace Lint

/-- A task that some rules may come to. -/
def Task.Of (rules : List (Rule × Options)) (t : Task) : Prop :=
  (t.rule, t.options) ∈ rules ∧ t.rule.family.pipeline.asks t.options.mode = true

/-- A state behind tasks of some rules. -/
def Reached [Host] (site : Site) (rules : List (Rule × Options)) (s : Shared World) : Prop :=
  ∃ done : List Task, (∀ t ∈ done, t.Of rules) ∧ behind? site done { world := {} } = some s

/-- Whatever tasks of some rules were done before, each of their tasks is answered, and its verdict
is fixed. -/
def Steady [Host] (site : Site) (rules : List (Rule × Options)) (verdict : Task → Verdict) : Prop :=
  ∀ s, Reached site rules s → ∀ t : Task, t.Of rules →
    ∃ answer, t.check site s = some answer ∧ answer.verdict = verdict t

/-- What a rule reports about the tokens of a document, if verdicts are fixed. -/
def reported (verdict : Task → Verdict) (tokens : List (Token Line)) (r : Rule × Options) :
    List Entry :=
  ((r.1.family.extractor.fragments tokens).filterMap
    (r.1.family.pipeline.told r.2.mode r.1.family.parser fun code => verdict ⟨r.1, r.2, code⟩)).map
    (Entry.ofFinding r.1.names)

section Steady

variable {site : Site} {rules : List (Rule × Options)} {verdict : Task → Verdict}

theorem reached_start [Host] (site : Site) (rules : List (Rule × Options)) :
    Reached site rules { world := {} } :=
  ⟨[], by simp, rfl⟩

theorem Reached.check [Host] {s : Shared World} (h : Reached site rules s) {t : Task}
    (ht : t.Of rules) {answer : Checked (Shared World)} (hcheck : t.check site s = some answer) :
    Reached site rules answer.state := by
  obtain ⟨done, hdone, hbehind⟩ := h
  refine ⟨done ++ [t], ?_, ?_⟩
  · simpa [or_imp, forall_and] using And.intro hdone ht
  · simp [behind?_append, hbehind, behind?, hcheck]

theorem Steady.checker [Host] (h : Steady site rules verdict) {r : Rule × Options} (hr : r ∈ rules)
    (hasks : r.1.family.pipeline.asks r.2.mode = true) :
    (r.1.checker site r.2).Steady (Reached site rules) fun code => verdict ⟨r.1, r.2, code⟩ := by
  intro code s hs
  obtain ⟨answer, hcheck, hverdict⟩ := h s hs ⟨r.1, r.2, code⟩ ⟨hr, hasks⟩
  exact ⟨answer, hcheck, hverdict, hs.check ⟨hr, hasks⟩ hcheck⟩

/-- What a rule reports does not depend on the tasks that were done before. -/
theorem Steady.run [Host] (h : Steady site rules verdict) {r : Rule × Options} (hr : r ∈ rules)
    (tokens : List (Token Line)) {s : Shared World} (hs : Reached site rules s) : ∃ events t,
      r.1.run r.2 (r.1.checker site r.2) tokens s = some (events, t) ∧ Reached site rules t ∧
      r.1.entries events = reported verdict tokens r := by
  obtain ⟨events, t, hrun, ht, hfound⟩ := Pipeline.run_of_steady (h.checker hr)
    (r.1.family.extractor.fragments tokens) hs
  rw [name_checker] at hfound
  refine ⟨events, t, hrun, ht, ?_⟩
  rw [reported, ← hfound]
  rfl

theorem Steady.runRules [Host] (h : Steady site rules verdict) (tokens : List (Token Line))
    {chosen : List (Rule × Options)} (hchosen : ∀ r ∈ chosen, r ∈ rules) {s : Shared World}
    (hs : Reached site rules s) : ∃ noted t,
      Lint.runRules site tokens chosen s =
        some (chosen.flatMap (reported verdict tokens), noted, t) ∧
      Reached site rules t := by
  induction chosen generalizing s with
  | nil => exact ⟨[], s, rfl, hs⟩
  | cons r others ih =>
    obtain ⟨hr, hothers⟩ := List.forall_mem_cons.mp hchosen
    obtain ⟨events, t, hrun, ht, hentries⟩ := h.run hr tokens hs
    obtain ⟨noted, u, hrest, hu⟩ := ih hothers ht
    refine ⟨events.filterMap Event.notice? ++ noted, u, ?_, hu⟩
    refine runRules_cons_eq_some_iff.mpr ⟨events, t, _, noted, hrun, hrest, ?_, rfl⟩
    rw [List.flatMap_cons, hentries]

/-- The entries of a document, if verdicts are fixed. -/
def entriesOf (verdict : Task → Verdict) (rules : List (Rule × Options)) (text : Text) :
    List Entry :=
  sorted (rules.flatMap (reported verdict (Markdown.tokenize text)))

/-- Each document has its entries, whatever the others are. -/
theorem Steady.runDocuments [Host] (h : Steady site rules verdict) (documents : List (Text × Text))
    {s : Shared World} (hs : Reached site rules s) : ∃ noted t,
      Lint.runDocuments site rules documents s =
        some (documents.map fun d => (d.1, entriesOf verdict rules d.2), noted, t) ∧
      Reached site rules t := by
  induction documents generalizing s with
  | nil => exact ⟨[], s, rfl, hs⟩
  | cons d documents ih =>
    obtain ⟨noted, t, hrules, ht⟩ := h.runRules (Markdown.tokenize d.2) (fun _ => id) hs
    obtain ⟨more, u, hrest, hu⟩ := ih ht
    exact ⟨noted ++ more, u, runDocuments_cons_eq_some_iff.mpr
      ⟨_, noted, t, _, more, hrules, hrest, rfl, rfl⟩, hu⟩

end Steady

end Lint

namespace Diagram

theorem greetsGarbled_iff_connect [Host] {site : Site} {settings : Settings} {behaviour : Behaviour}
    (hsettings : site.settings? = .ok settings) (hlaunch : site.launch 0 = .ok behaviour)
    {garbled : ValueFault} : site.GreetsGarbled {} garbled ↔ ∃ session noted,
      Session.connect (Child.start behaviour) settings.timeout =
        some (.error (.value garbled), session, noted) := by
  rw [Session.connect_eq_value_iff (Site.timeout_positive settings)]
  constructor
  · rintro ⟨settings', behaviour', hset, hlaunched, hgarbled⟩
    obtain rfl := Except.ok.inj (hlaunch.symm.trans hlaunched)
    exact hgarbled
  · intro hgarbled
    exact ⟨settings, behaviour, hsettings, hlaunch, hgarbled⟩

/-- The shared session can be closed behind any diagrams. A fault is raised exactly if there was a
diagram and the process greeted with a line that cannot be read. -/
theorem Served.closed [Host] {site : Site} {codes : List Text} {s : Shared World}
    (h : Served site codes s) : ∃ closed, (s.close site.keeper).1 = some closed ∧
      ∀ fault, closed = .error fault ↔
        codes ≠ [] ∧ ∃ garbled, fault = .value garbled ∧ site.GreetsGarbled {} garbled := by
  have hquiet : ∀ {closed : Option (Except Fault Unit)}, closed = some (.ok ()) →
      (codes = [] ∨ ∀ garbled, ¬ site.GreetsGarbled {} garbled) →
      ∃ closed', closed = some closed' ∧ ∀ fault, closed' = .error fault ↔
        codes ≠ [] ∧ ∃ garbled, fault = .value garbled ∧ site.GreetsGarbled {} garbled := by
    rintro closed rfl hnone
    refine ⟨_, rfl, fun fault => ?_⟩
    simp only [reduceCtorEq, false_iff, not_and, not_exists]
    rintro hne garbled -
    exact hnone.resolve_left hne garbled
  cases h with
  | unasked hmemo hattempts hsessions => exact hquiet (by simp [Shared.close, hmemo]) (.inl rfl)
  | unset hne hsettings hmemo hattempts hsessions =>
    refine hquiet (by simp [Shared.close, hmemo]) (.inr ?_)
    rintro garbled ⟨settings, behaviour, hset, -⟩
    rw [hsettings] at hset
    cases hset
  | refused hne hsettings hlaunch hmemo hattempts hsessions =>
    refine hquiet (by simp [Shared.close, hmemo]) (.inr ?_)
    rintro garbled ⟨settings, behaviour, -, hlaunched, -⟩
    rw [show World.attempts {} .mermaid = 0 from rfl, hlaunch] at hlaunched
    cases hlaunched
  | @failed _ _ _ _ found _ _ hne hsettings hlaunch hconnect hmemo hattempts hsessions =>
    obtain ⟨fault, rfl⟩ | ⟨garbled, rfl⟩ := Session.ofProcess_of_connect hconnect
    · refine hquiet (by simp [Shared.close, hmemo]) (.inr ?_)
      intro garbled hgreets
      obtain ⟨session, noted, hspoiled⟩ := (greetsGarbled_iff_connect hsettings hlaunch).mp hgreets
      rw [hconnect] at hspoiled
      simp at hspoiled
    · refine ⟨.error (.value garbled), by simp [Shared.close, hmemo], fun fault => ?_⟩
      simp only [greetsGarbled_iff_connect hsettings hlaunch, hconnect]
      simp [hne, eq_comm]
  | live hne hsettings hlaunch hconnect hmemo hattempts hrequests hsessions =>
    refine hquiet (by simp [Shared.close, hmemo]) (.inr ?_)
    intro garbled hgreets
    obtain ⟨session, noted, hspoiled⟩ := (greetsGarbled_iff_connect hsettings hlaunch).mp hgreets
    rw [hconnect] at hspoiled
    simp at hspoiled

end Diagram

namespace Lint

/-- Which fault closing raises behind documents, if it raises one. -/
theorem closeRules_of_runDocuments [Host] {site : Site} {rules : List (Rule × Options)}
    {documents : List (Text × Text)} {results : List (Text × List Entry)} {noted : List Notice}
    {s : Shared World}
    (hrun : runDocuments site rules documents { world := {} } = some (results, noted, s)) :
    ∃ closed noted t, closeRules site rules s = some (closed, noted, t) ∧
      ∀ fault, closed = .error fault ↔ (∃ r ∈ rules, r.1.closes = true) ∧
        (tasks rules documents).filterMap Task.diagram? ≠ [] ∧
        ∃ garbled, fault = .value garbled ∧ site.GreetsGarbled {} garbled := by
  have hserved := served_of_behind? (behind?_of_runDocuments hrun)
  by_cases hcloses : ∃ r ∈ rules, r.1.closes = true
  · obtain ⟨closed, hclosed, hfault⟩ := hserved.closed
    refine ⟨closed, (s.close site.keeper).2.1, (s.close site.keeper).2.2, ?_, fun fault => ?_⟩
    · rw [closeRules_closing hcloses, hclosed]
      rfl
    · rw [hfault, and_iff_right hcloses]
  · refine ⟨.ok (), [], s, closeRules_resting ?_ site s, fun fault => ?_⟩
    · simpa using hcloses
    · simp [hcloses]

/-- The outcome of linting, if verdicts are fixed. -/
theorem lint_of_steady [Host] {site : Site} {rules : List Rule} {config : Json.Members}
    {enabled : List (Rule × Options)} (henabled : Rule.enabled config rules = .ok enabled)
    {verdict : Task → Verdict} (hsteady : Steady site enabled verdict)
    (documents : List (Text × Text)) :
    ∃ outcome, lint site rules config documents = some outcome ∧
      (∀ results, outcome.results = .ok results →
        results = documents.map fun d => (d.1, entriesOf verdict enabled d.2)) ∧
      ∀ fault, outcome.results = .error fault ↔ (∃ r ∈ enabled, r.1.closes = true) ∧
        (tasks enabled documents).filterMap Task.diagram? ≠ [] ∧
        ∃ garbled, fault = .value garbled ∧ site.GreetsGarbled {} garbled := by
  obtain ⟨noted, s, hrun, -⟩ := hsteady.runDocuments documents (reached_start site enabled)
  obtain ⟨closed, more, t, hclose, hfault⟩ := closeRules_of_runDocuments hrun
  have hlint : lint site rules config documents =
      some ⟨closed.map fun () => documents.map fun d => (d.1, entriesOf verdict enabled d.2),
        noted ++ more, t.world⟩ := by
    simp [lint, henabled, hrun, hclose]
  refine ⟨_, hlint, ?_, fun fault => Iff.trans ?_ (hfault fault)⟩
  · intro results hresults
    cases closed with
    | error fault => cases hresults
    | ok u => exact (Except.ok.inj hresults).symm
  · cases closed <;> simp [Except.map]

end Lint

namespace Formula

/-- Where scripts end in the same way whenever they are run, the verdict follows from the code. -/
theorem verdict_check [Host] {site : Site}
    (hscripts : ∀ m n call, site.runScript m call = site.runScript n call) (options : Options)
    (code : Text) (w : World) :
    (check site options code w).verdict = (check site options code {}).verdict := by
  cases hsettings : site.settings? with
  | error fault => simp [check, parse, hsettings]
  | ok settings =>
    have hreply : (site.runOnce (payload code options.displayMode options.strict) settings w).1 =
        (site.runOnce (payload code options.displayMode options.strict) settings {}).1 := by
      simp only [Site.runOnce, hscripts _ (World.attempts {} .math)]
    simp only [check, parse, hsettings, hreply]
    generalize (site.runOnce _ settings {}).1 = answer
    cases answer <;> rfl

end Formula

namespace Diagram

/-- No session has been started, or the start failed with a given fault, which is kept. -/
def Failing (fault : Fault) (s : Shared World) : Prop :=
  (s.memo = none ∧ s.world.attempts .mermaid = 0) ∨ s.memo = some ⟨s.loop, .failed fault⟩

theorem Failing.framed {fault : Fault} {s : Shared World} (h : Failing fault s) {w : World}
    (hsame : World.SameSessions s.world w) : Failing fault { s with world := w } := by
  obtain ⟨hmemo, hattempts⟩ | hmemo := h
  · exact .inl ⟨hmemo, hsame.attempts.trans hattempts⟩
  · exact .inr hmemo

/-- Where every first start fails in one way, no diagram gets beyond that. -/
theorem Failing.check [Host] {site : Site} {fault : Fault}
    (hstart : ∀ w : World, w.attempts .mermaid = 0 → (site.start w).1 = .failed fault)
    {s : Shared World} (h : Failing fault s) (code : Text) : ∃ answer,
      Diagram.check site.keeper code s = some answer ∧
      answer.verdict = (verdict (.error (.fault fault))).1 ∧ Failing fault answer.state := by
  suffices hsession : (s.session site.keeper).1 = some (.error fault) ∧
      Failing fault (s.session site.keeper).2.2 by
    obtain ⟨noted, t, heq⟩ : ∃ noted t, s.session site.keeper = (some (.error fault), noted, t) :=
      ⟨_, _, Prod.ext hsession.1 rfl⟩
    have hparse : parse site.keeper code s = some (.error (.fault fault), noted, t) := by
      rw [parse, heq]
    refine ⟨_, check_eq_some_iff.mpr ⟨_, _, _, hparse, rfl⟩, rfl, ?_⟩
    rw [heq] at hsession
    exact hsession.2
  obtain ⟨hmemo, hattempts⟩ | hmemo := h
  · obtain ⟨hfirst, hstate⟩ := session_of_fresh site hmemo
    rw [hstart s.world hattempts] at hfirst hstate
    exact ⟨hfirst, .inr (by rw [hstate])⟩
  · rw [session_of_kept hmemo]
    exact ⟨rfl, .inr hmemo⟩

end Diagram

namespace Lint

/-- What a task comes to where every first start of a session fails in one way. -/
def failingVerdict [Host] (site : Site) (fault : Fault) (t : Task) : Verdict :=
  match t.rule.family with
  | .mermaid => (Diagram.verdict (.error (.fault fault))).1
  | .math => (Formula.check site t.options t.code {}).verdict

/-- Where every first start of a session fails in one way, and scripts end in the same way whenever
they are run, verdicts are fixed. -/
theorem steady_of_failing [Host] {site : Site} {fault : Fault}
    (hstart : ∀ w : World, w.attempts .mermaid = 0 → (site.start w).1 = .failed fault)
    (hscripts : ∀ m n call, site.runScript m call = site.runScript n call)
    (rules : List (Rule × Options)) : Steady site rules (failingVerdict site fault) := by
  rintro s ⟨done, -, hbehind⟩ t -
  have hfailing : Diagram.Failing fault s := by
    refine behind?_induction (I := fun _ s => Diagram.Failing fault s) ?_ (.inl ⟨rfl, rfl⟩) hbehind
    intro done task s answer hs hcheck
    obtain ⟨-, hcheck⟩ | ⟨-, hstate⟩ := Task.check_cases hcheck
    · obtain ⟨answer', hanswer, -, hafter⟩ := hs.check hstart task.code
      obtain rfl := Option.some.inj (hcheck.symm.trans hanswer)
      exact hafter
    · rw [hstate]
      exact hs.framed (Formula.sameSessions_check _ _ _ _)
  obtain ⟨r, options, code⟩ := t
  simp only [Task.check, failingVerdict, Rule.checker]
  cases r.family with
  | mermaid =>
    obtain ⟨answer, hanswer, hverdict, -⟩ := hfailing.check hstart code
    exact ⟨answer, hanswer, hverdict⟩
  | math => exact ⟨_, rfl, Formula.verdict_check hscripts options code s.world⟩

/-- With parsers that give fixed verdicts, linting comes to an outcome. Unless closing raises the
fault of a greeting that cannot be read, the results have an entry for each document, in their
order. It is the stable sort by lines of what the rules report about that document, one rule after
another, so that the other documents do not matter. -/
theorem results_assembled [Host] {site : Site} {rules : List Rule} {config : Json.Members}
    {enabled : List (Rule × Options)} (henabled : Rule.enabled config rules = .ok enabled)
    {verdict : Task → Verdict} (hsteady : Steady site enabled verdict) :
    ∃ entries : Text → List Entry,
      (∀ text, StableSort (enabled.flatMap (reported verdict (Markdown.tokenize text)))
        (entries text)) ∧
      ∀ documents, ∃ outcome, lint site rules config documents = some outcome ∧
        (∀ results, outcome.results = .ok results →
          results = documents.map fun d => (d.1, entries d.2)) ∧
        ∀ fault, outcome.results = .error fault ↔ (∃ r ∈ enabled, r.1.closes = true) ∧
          (tasks enabled documents).filterMap Task.diagram? ≠ [] ∧
          ∃ garbled, fault = .value garbled ∧ site.GreetsGarbled {} garbled :=
  ⟨entriesOf verdict enabled, fun _ => stableSort_sorted _, lint_of_steady henabled hsteady⟩

/-- A site at which no session can be started, and scripts accept the formulas with a letter x. -/
def pickySite : Site :=
  { settings := (Settings.make? "node" none none).toOption
    launch := fun _ => .error "no such program"
    runScript := fun _ call =>
      .finished (if Text.occursIn "x" call.input then "\x7b\"ok\": true\x7d\n" else "\n") [] 0 }

def pickyFault : Fault :=
  .bridge (.cannotRun "node" "no such program")

/-- Two rules with their options, as an empty configuration leaves them. -/
def bothRules : List (Rule × Options) :=
  [(Rule.diagrams, {}), (Rule.formulas, {})]

theorem enabled_bothRules : Rule.enabled [] Rule.all = .ok bothRules :=
  rfl

/-- A document whose diagram stands between its formulas. -/
def mixedText : Text :=
  "```math\ny\n```\n\n```mermaid\npie\n```\n\n```math\ny\n```"

def mixedDocuments : List (Text × Text) :=
  [("a.md", mixedText), ("b.md", "```math\nx\n```")]

section

open scoped Host.Usual

theorem lines_mixedText :
    (bothRules.flatMap (reported (failingVerdict pickySite pickyFault)
      (Markdown.tokenize mixedText))).map Entry.line = [5, 1, 9] := by
  decide +kernel

/-- The fragments of both families are reported in the order of their lines. -/
theorem results_assembled_mixed : ∃ (entries : Text → List Entry) (outcome : Outcome),
    lint pickySite Rule.all [] mixedDocuments = some outcome ∧
    outcome.results = .ok (mixedDocuments.map fun d => (d.1, entries d.2)) ∧
    (entries mixedText).map Entry.line = [1, 5, 9] := by
  have hsteady : Steady pickySite bothRules (failingVerdict pickySite pickyFault) :=
    steady_of_failing (fun _ _ => rfl) (fun _ _ _ => rfl) bothRules
  obtain ⟨entries, hentries, hlint⟩ := results_assembled enabled_bothRules hsteady
  obtain ⟨outcome, houtcome, hok, hfault⟩ := hlint mixedDocuments
  refine ⟨entries, outcome, houtcome, ?_, ?_⟩
  · cases hresults : outcome.results with
    | ok results => rw [hok results hresults]
    | error fault =>
      obtain ⟨-, -, garbled, -, settings, behaviour, -, hlaunch, -⟩ := (hfault fault).mp hresults
      cases hlaunch
  · refine (hentries mixedText).map_line ?_ (by decide)
    rw [lines_mixedText]
    decide

end

theorem steady_garbledSite [Host] (rules : List (Rule × Options)) : Steady Diagram.garbledSite rules
    (failingVerdict Diagram.garbledSite (.value (.tooManyDigits (Text.digitLimit + 1)))) :=
  steady_of_failing
    (fun w _ => Site.start_eq_value_iff.mpr (Diagram.greetsGarbled_garbledSite w))
    (fun _ _ _ => rfl) rules

def oneDiagram : List (Text × Text) :=
  [("a.md", "```mermaid\npie\n```")]

theorem diagrams_oneDiagram :
    (tasks bothRules oneDiagram).filterMap Task.diagram? = ["pie"] := by
  decide +kernel

section

open scoped Host.Usual

/-- The verdict on every diagram is that the parser broke down, for one reason. Still there are no
results: the reason is raised again when the session is closed. -/
theorem results_lost_at_closing : ∃ verdict outcome,
    Steady Diagram.garbledSite bothRules verdict ∧
    lint Diagram.garbledSite Rule.all [] oneDiagram = some outcome ∧
    outcome.results = .error (.value (.tooManyDigits (Text.digitLimit + 1))) := by
  have hsteady := steady_garbledSite bothRules
  obtain ⟨outcome, hlint, -, hfault⟩ := lint_of_steady enabled_bothRules hsteady oneDiagram
  refine ⟨_, outcome, hsteady, hlint, (hfault _).mpr ⟨⟨_, List.mem_cons_self, rfl⟩, ?_, _, rfl,
    Diagram.greetsGarbled_garbledSite {}⟩⟩
  rw [diagrams_oneDiagram]
  decide

end

end Lint

end FragmentLint
