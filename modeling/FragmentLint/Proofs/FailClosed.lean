import FragmentLint.Lint.Documents
import FragmentLint.Proofs.Acceptance
import FragmentLint.Proofs.Visits
import Mathlib.Data.List.Forall2

/-!
# Every fragment that is not accepted is reported

A run over documents is followed turn by turn. Each turn is the visit of one fragment by one
rule, and begins in the state of the shared session and of the world that the turn before it
left. The entries of a document are then exactly those of its turns: one for each turn whose
fragment was not accepted, none for the others. No course of events makes a fragment that was
not accepted pass.
-/
namespace FragmentLint

namespace Diagnostic

theorem le_line_anchor (d : Diagnostic) (start : Line) (fallback : Option Text) :
    start.number ≤ (d.anchor start fallback).line.number := by
  rw [number_line_anchor]
  exact Nat.le_add_right _ _

end Diagnostic

namespace Visit

variable {σ : Type}

/-- A visit reports nothing exactly if the parser was asked and gave no failure. -/
theorem finding?_eq_none_iff {p : Pipeline} {parser : Text} {v : Visit σ} :
    v.finding? p parser = none ↔
      ∃ answer, v.answer = some answer ∧ answer.verdict.failure? = none := by
  unfold finding?
  cases v.answer with
  | none => simp
  | some answer =>
    simp only [Pipeline.judge, Option.some.injEq, exists_eq_left']
    cases answer.verdict.failure? <;> simp

/-- What a visit reports lies at or below the line on which its fragment starts. -/
theorem le_line_finding {p : Pipeline} {parser : Text} {v : Visit σ} {f : Finding}
    (h : v.finding? p parser = some f) : v.fragment.start.number ≤ f.line.number := by
  unfold finding? at h
  cases hans : v.answer with
  | none =>
    simp only [hans, Option.some.injEq] at h
    subst h
    cases p.family <;> exact Nat.le_refl _
  | some answer =>
    simp only [hans, Pipeline.judge] at h
    cases hf : answer.verdict.failure? with
    | none => simp [hf] at h
    | some failure =>
      simp only [hf, Option.some.injEq] at h
      subst h
      exact Diagnostic.le_line_anchor _ _ _

end Visit

namespace Lint

structure Turn where
  rule : Rule
  options : Options
  visit : Visit (Shared World)

namespace Turn

/-- The fragment is not blank, and its parser accepts it in the state in which its turn comes. -/
def Accepted [Host] (site : Site) (t : Turn) : Prop :=
  ∃ code, t.visit.fragment.asked? = some code ∧ match t.rule.family with
    | .mermaid => Diagram.Accepts site code t.visit.before
    | .math => Formula.Accepts site t.options code t.visit.before.world

/-- What the script of a formula wrote is no UTF-8, or a line behind its answer cannot be read. -/
def Spoiled [Host] (site : Site) (t : Turn) : Prop :=
  t.rule.family = .math ∧ ∃ code, t.visit.fragment.asked? = some code ∧
    Formula.Spoiled site t.options code t.visit.before.world

/-- The fragment is accepted, and its answer not spoiled. -/
def Passes [Host] (site : Site) (t : Turn) : Prop :=
  t.Accepted site ∧ ¬ t.Spoiled site

def report? (t : Turn) : Option Entry :=
  (t.visit.finding? t.rule.family.pipeline t.rule.family.parser).map (Entry.ofFinding t.rule.names)

/-- Whether an entry is one of the rule, at or below the line on which the fragment starts. -/
def Owns (t : Turn) (e : Entry) : Prop :=
  e.names = t.rule.names ∧ (t.visit.fragment.start.number : Int) ≤ e.line

theorem owns_report {t : Turn} {e : Entry} (h : t.report? = some e) : t.Owns e := by
  obtain ⟨f, hf, rfl⟩ := Option.map_eq_some_iff.mp h
  exact ⟨rfl, Int.ofNat_le.mpr (Visit.le_line_finding hf)⟩

/-- A turn that was taken makes no entry exactly if its fragment was accepted and its answer
was not spoiled. -/
theorem report?_eq_none_iff [Host] {site : Site} {t : Turn} {f : Fragment} {s : Shared World}
    (h : (t.rule.checker site t.options).visit? f s = some t.visit) :
    t.report? = none ↔ t.Passes site := by
  obtain ⟨hfrag, hbefore, -⟩ := Checker.visit?_spec h
  rw [report?, Option.map_eq_none_iff, Visit.finding?_eq_none_iff]
  unfold Passes Accepted Spoiled
  rw [hfrag, hbefore]
  cases ha : f.asked? with
  | none =>
    rw [Checker.visit?_blank _ ha, Option.some.injEq] at h
    rw [← h]
    simp
  | some code =>
    rw [Checker.visit?_asked _ ha] at h
    obtain ⟨answer, hcheck, hvisit⟩ := Option.map_eq_some_iff.mp h
    rw [← hvisit]
    simp only [Option.some.injEq, exists_eq_left']
    cases hfamily : t.rule.family with
    | mermaid =>
      simp only [Rule.checker, hfamily] at hcheck
      simp [Diagram.check_accepted_iff hcheck]
    | math =>
      simp only [Rule.checker, hfamily, Formula.checker, Option.map_some,
        Option.some.injEq] at hcheck
      subst hcheck
      simp [Formula.check_accepted_iff]

end Turn

/-- Turns that are taken one after another, each in the state that the one before left. -/
def Taken [Host] (site : Site) : Shared World → List Turn → Shared World → Prop
  | s, [], u => s = u
  | s, t :: ts, u =>
    (t.rule.checker site t.options).visit? t.visit.fragment s = some t.visit ∧
      Taken site t.visit.after ts u

theorem taken_append [Host] {site : Site} {s u : Shared World} {ts ts' : List Turn} :
    Taken site s (ts ++ ts') u ↔ ∃ m, Taken site s ts m ∧ Taken site m ts' u := by
  induction ts generalizing s with
  | nil => simp [Taken]
  | cons t ts ih => simp [Taken, ih, and_assoc]

theorem report?_of_taken [Host] {site : Site} {s u : Shared World} {ts : List Turn}
    (h : Taken site s ts u) :
    ∀ t ∈ ts, t.report? = none ↔ t.Passes site := by
  induction ts generalizing s with
  | nil => simp
  | cons t ts ih =>
    intro t' ht'
    obtain rfl | hmem := List.mem_cons.mp ht'
    · exact Turn.report?_eq_none_iff h.1
    · exact ih h.2 t' hmem

/-- The rule, the options and the fragment of a turn. -/
def Turn.place (t : Turn) : Rule × Options × Fragment :=
  (t.rule, t.options, t.visit.fragment)

/-- The turns that are due for the tokens of a document: each rule's fragments, in the order of
the rules. -/
def due (rules : List (Rule × Options)) (tokens : List (Token Line)) :
    List (Rule × Options × Fragment) :=
  rules.flatMap fun (r, options) =>
    (r.family.extractor.fragments tokens).map fun f => (r, options, f)

theorem taken_of_visits [Host] {site : Site} {r : Rule} {options : Options}
    {fragments : List Fragment} {s u : Shared World} {vs : List (Visit (Shared World))}
    (h : (r.checker site options).visits? fragments s = some (vs, u)) :
    Taken site s (vs.map fun v => ⟨r, options, v⟩) u := by
  induction fragments generalizing s vs with
  | nil =>
    simp only [Checker.visits?, Option.some.injEq, Prod.mk.injEq] at h
    obtain ⟨rfl, rfl⟩ := h
    rfl
  | cons f fragments ih =>
    simp only [Checker.visits?, Option.bind_eq_bind, Option.bind_eq_some_iff, Option.pure_def,
      Option.some.injEq, Prod.mk.injEq] at h
    obtain ⟨v, hv, ⟨us, w⟩, hus, rfl, rfl⟩ := h
    obtain ⟨hfrag, -, -⟩ := Checker.visit?_spec hv
    refine ⟨?_, ih hus⟩
    rw [hfrag]
    exact hv

theorem name_checker [Host] (r : Rule) (site : Site) (options : Options) :
    (r.checker site options).name = r.family.parser := by
  unfold Rule.checker
  cases r.family <;> rfl

/-- A run of one rule in full mode, as turns. -/
theorem run_taken [Host] {site : Site} {r : Rule} {options : Options} (hfull : options.mode = .full)
    {tokens : List (Token Line)} {s u : Shared World} {events : List Event}
    (h : r.run options (r.checker site options) tokens s = some (events, u)) :
    ∃ ts, Taken site s ts u ∧ ts.map Turn.place = due [(r, options)] tokens ∧
      r.entries events = ts.filterMap Turn.report? := by
  have hout := r.family.pipeline.run_outside (r.checker site options) hfull
    (r.family.extractor.fragments tokens) s
  rw [show r.family.pipeline.run (r.checker site options) options.mode
    (r.family.extractor.fragments tokens) s = some (events, u) from h, Option.map_some] at hout
  obtain ⟨⟨vs, w⟩, hvs, heq⟩ := Option.map_eq_some_iff.mp hout.symm
  simp only [Pipeline.outside, Pipeline.outsideOf, Prod.mk.injEq, name_checker] at heq
  obtain ⟨hfound, -, rfl⟩ := heq
  refine ⟨vs.map fun v => ⟨r, options, v⟩, taken_of_visits hvs, ?_, ?_⟩
  · obtain ⟨hfrag, -⟩ := Checker.visits?_spec hvs
    simp only [due, List.flatMap_cons, List.flatMap_nil, List.append_nil, ← hfrag, List.map_map]
    rfl
  · have hentries : r.entries events = (Event.findings events).map (Entry.ofFinding r.names) := rfl
    rw [hentries, ← hfound, List.map_filterMap, List.filterMap_map]
    rfl

/-- Rules have run exactly if the first one has, and then the others. -/
theorem runRules_cons_eq_some_iff [Host] {site : Site} {tokens : List (Token Line)}
    {r : Rule × Options} {rules : List (Rule × Options)} {s t : Shared World} {entries : List Entry}
    {noted : List Notice} :
    runRules site tokens (r :: rules) s = some (entries, noted, t) ↔
      ∃ events u others more, r.1.run r.2 (r.1.checker site r.2) tokens s = some (events, u) ∧
        runRules site tokens rules u = some (others, more, t) ∧
        entries = r.1.entries events ++ others ∧
        noted = events.filterMap Event.notice? ++ more := by
  simp only [runRules, Option.bind_eq_bind, Option.bind_eq_some_iff, Option.pure_def,
    Option.some.injEq, Prod.mk.injEq]
  constructor
  · rintro ⟨⟨events, u⟩, hrun, ⟨others, more, v⟩, hothers, rfl, rfl, rfl⟩
    exact ⟨events, u, others, more, hrun, hothers, rfl, rfl⟩
  · rintro ⟨events, u, others, more, hrun, hothers, rfl, rfl⟩
    exact ⟨(events, u), hrun, (others, more, t), hothers, rfl, rfl, rfl⟩

/-- Documents have been linted exactly if the first one has, and then the others. -/
theorem runDocuments_cons_eq_some_iff [Host] {site : Site} {rules : List (Rule × Options)}
    {d : Text × Text} {documents : List (Text × Text)} {s t : Shared World}
    {results : List (Text × List Entry)} {noted : List Notice} :
    runDocuments site rules (d :: documents) s = some (results, noted, t) ↔
      ∃ entries first u others more,
        runRules site (Markdown.tokenize d.2) rules s = some (entries, first, u) ∧
        runDocuments site rules documents u = some (others, more, t) ∧
        results = (d.1, sorted entries) :: others ∧ noted = first ++ more := by
  simp only [runDocuments, Option.bind_eq_bind, Option.bind_eq_some_iff, Option.pure_def,
    Option.some.injEq, Prod.mk.injEq]
  constructor
  · rintro ⟨⟨entries, first, u⟩, hrules, ⟨others, more, v⟩, hothers, rfl, rfl, rfl⟩
    exact ⟨entries, first, u, others, more, hrules, hothers, rfl, rfl⟩
  · rintro ⟨entries, first, u, others, more, hrules, hothers, rfl, rfl⟩
    exact ⟨(entries, first, u), hrules, (others, more, t), hothers, rfl, rfl, rfl⟩

/-- What the rules report about a document, as turns. -/
theorem runRules_taken [Host] {site : Site} {tokens : List (Token Line)}
    {rules : List (Rule × Options)} (hfull : ∀ r ∈ rules, r.2.mode = .full)
    {s u : Shared World} {entries : List Entry} {noted : List Notice}
    (h : runRules site tokens rules s = some (entries, noted, u)) :
    ∃ ts, Taken site s ts u ∧ ts.map Turn.place = due rules tokens ∧
      entries = ts.filterMap Turn.report? := by
  induction rules generalizing s entries noted with
  | nil =>
    simp only [runRules, Option.some.injEq, Prod.mk.injEq] at h
    obtain ⟨rfl, -, rfl⟩ := h
    exact ⟨[], rfl, rfl, rfl⟩
  | cons r rules ih =>
    obtain ⟨events, m, others, more, hrun, hothers, rfl, -⟩ := runRules_cons_eq_some_iff.mp h
    obtain ⟨hmode, hmodes⟩ := List.forall_mem_cons.mp hfull
    obtain ⟨ts, htaken, hplaces, hentries⟩ := run_taken hmode hrun
    obtain ⟨ts', htaken', hplaces', hentries'⟩ := ih hmodes hothers
    refine ⟨ts ++ ts', taken_append.mpr ⟨m, htaken, htaken'⟩, ?_, ?_⟩
    · rw [List.map_append, hplaces, hplaces']
      simp [due]
    · rw [List.filterMap_append, hentries, hentries']

/-- Each turn has a slot, which is empty exactly if its fragment passes; the entries are the
contents of the slots, in some order. -/
def Settles (passes : Turn → Prop) (ts : List Turn) (entries : List Entry) : Prop :=
  ∃ slots : List (Option Entry),
    List.Forall₂ (fun t slot => (slot = none ↔ passes t) ∧ ∀ e ∈ slot, t.Owns e) ts slots ∧
    entries.Perm (slots.filterMap id)

theorem settles_of_taken [Host] {site : Site} {s u : Shared World} {ts : List Turn}
    (h : Taken site s ts u) {entries : List Entry}
    (hperm : entries.Perm (ts.filterMap Turn.report?)) : Settles (Turn.Passes site) ts entries := by
  refine ⟨ts.map Turn.report?, ?_, ?_⟩
  · rw [List.forall₂_map_right_iff, List.forall₂_same]
    intro t ht
    exact ⟨report?_of_taken h t ht, fun e he => Turn.owns_report he⟩
  · rwa [List.filterMap_map]

/-- The results of documents are accounted for by turns: every fragment has its turn, in the
order of the documents, rules and fragments, and the turns of each document settle its entries.
A turn is left without an entry exactly if its fragment passes. -/
def Accounted [Host] (site : Site) (passes : Turn → Prop) (rules : List (Rule × Options))
    (documents : List (Text × Text)) (results : List (Text × List Entry)) : Prop :=
  ∃ (turns : List (List Turn)) (last : Shared World),
    Taken site { world := {} } turns.flatten last ∧
    turns.map (·.map Turn.place) = documents.map (fun d => due rules (Markdown.tokenize d.2)) ∧
    results.map Prod.fst = documents.map Prod.fst ∧
    List.Forall₂ (Settles passes) turns (results.map Prod.snd)

/-- Documents are linted one after another, each as its turns. -/
theorem runDocuments_taken [Host] {site : Site} {rules : List (Rule × Options)}
    (hfull : ∀ r ∈ rules, r.2.mode = .full) {documents : List (Text × Text)}
    {s u : Shared World} {results : List (Text × List Entry)} {noted : List Notice}
    (h : runDocuments site rules documents s = some (results, noted, u)) :
    ∃ turns : List (List Turn), Taken site s turns.flatten u ∧
      turns.map (·.map Turn.place) =
        documents.map (fun d => due rules (Markdown.tokenize d.2)) ∧
      results.map Prod.fst = documents.map Prod.fst ∧
      List.Forall₂ (Settles (Turn.Passes site)) turns (results.map Prod.snd) := by
  induction documents generalizing s results noted with
  | nil =>
    simp only [runDocuments, Option.some.injEq, Prod.mk.injEq] at h
    obtain ⟨rfl, -, rfl⟩ := h
    exact ⟨[], rfl, rfl, rfl, List.Forall₂.nil⟩
  | cons d documents ih =>
    obtain ⟨entries, first, m, others, more, hrules, hothers, rfl, -⟩ :=
      runDocuments_cons_eq_some_iff.mp h
    obtain ⟨ts, htaken, hplaces, hentries⟩ := runRules_taken hfull hrules
    obtain ⟨turns, htakens, hplacess, hnames, hsettles⟩ := ih hothers
    refine ⟨ts :: turns, ?_, by simp [hplaces, hplacess], by simp [hnames], ?_⟩
    · rw [List.flatten_cons]
      exact taken_append.mpr ⟨m, htaken, htakens⟩
    · refine List.Forall₂.cons (settles_of_taken htaken ?_) hsettles
      rw [← hentries]
      exact List.mergeSort_perm entries _

/-- Where linting has results, they are those of the documents. -/
theorem runDocuments_of_lint [Host] {site : Site} {rules : List Rule} {config : Json.Members}
    {documents : List (Text × Text)} {enabled : List (Rule × Options)} {outcome : Outcome}
    {results : List (Text × List Entry)} (hconfig : Rule.enabled config rules = .ok enabled)
    (hlint : lint site rules config documents = some outcome)
    (hresults : outcome.results = .ok results) :
    ∃ noted s, runDocuments site enabled documents { world := {} } = some (results, noted, s) := by
  simp only [lint, hconfig, Option.bind_eq_bind, Option.bind_eq_some_iff, Option.pure_def,
    Option.some.injEq] at hlint
  obtain ⟨⟨found, noted, s⟩, hrun, ⟨closed, more, t⟩, -, rfl⟩ := hlint
  cases closed with
  | error fault => simp [Except.map] at hresults
  | ok u =>
    obtain rfl : found = results := by simpa [Except.map] using hresults
    exact ⟨noted, s, hrun⟩

/-- An output that accepts, and a whole number behind it with one digit more than can be read. -/
def spoiledOutput : Text :=
  "\x7b\"ok\": true\x7d\n" ++ List.replicate (Text.digitLimit + 1) '1'

/-- A site at which every script writes that output. -/
def spoiledSite : Site :=
  { launch := fun _ => .error "no such program"
    runScript := fun _ _ => .finished spoiledOutput [] 0 }

def oneFormula : Text := "```math\nx\n```"

theorem diagrams_oneFormula :
    Family.mermaid.extractor.fragments (Markdown.tokenize oneFormula) = [] := by
  decide +kernel

theorem formulas_oneFormula :
    Family.math.extractor.fragments (Markdown.tokenize oneFormula) = [⟨"x\n", Line.first⟩] := by
  decide +kernel

theorem due_oneFormula :
    due [(Rule.diagrams, {}), (Rule.formulas, {})] (Markdown.tokenize oneFormula) =
      [(Rule.formulas, {}, ⟨"x\n", Line.first⟩)] := by
  have hmermaid : Rule.diagrams.family = .mermaid := rfl
  have hmath : Rule.formulas.family = .math := rfl
  simp only [due, List.flatMap_cons, List.flatMap_nil, hmermaid, hmath, diagrams_oneFormula,
    formulas_oneFormula, List.map_nil, List.map_cons, List.nil_append, List.append_nil]

theorem lint_oneFormula [Host] (site : Site) :
    ∃ outcome results, lint site Rule.all [] [("a.md", oneFormula)] = some outcome ∧
      outcome.results = .ok results := by
  have hrules : Rule.enabled [] Rule.all = .ok [(Rule.diagrams, {}), (Rule.formulas, {})] := rfl
  have hmermaid : Rule.diagrams.family = .mermaid := rfl
  have hmath : Rule.formulas.family = .math := rfl
  simp only [lint, hrules, runDocuments, runRules, Rule.run, hmermaid, hmath,
    diagrams_oneFormula, formulas_oneFormula]
  exact ⟨_, _, rfl, rfl⟩

/-- Whatever the processes do, a run in full mode reports exactly the fragments that were not
accepted, each by one entry. The one fragment that is reported although it was accepted is a
formula whose answer is spoiled, by a later line or by bytes that are no UTF-8. -/
theorem lint_reports_unaccepted [Host] {site : Site} {config : Json.Members}
    {documents : List (Text × Text)} {rules : List (Rule × Options)} {outcome : Outcome}
    {results : List (Text × List Entry)}
    (hconfig : Rule.enabled config Rule.all = .ok rules)
    (hfull : ∀ r ∈ rules, r.2.mode = .full)
    (hlint : lint site Rule.all config documents = some outcome)
    (hresults : outcome.results = .ok results) :
    Accounted site (fun t => t.Accepted site ∧ ¬ t.Spoiled site) rules documents results := by
  obtain ⟨noted, s, hrun⟩ := runDocuments_of_lint hconfig hlint hresults
  obtain ⟨turns, htaken, hplaces, hnames, hsettles⟩ := runDocuments_taken hfull hrun
  exact ⟨turns, s, htaken, hplaces, hnames, hsettles⟩

section

open scoped Host.Usual

theorem lint_reports_unaccepted_oneFormula : ∃ outcome results,
    lint spoiledSite Rule.all [] [("a.md", oneFormula)] = some outcome ∧
    outcome.results = .ok results ∧
    Accounted spoiledSite (fun t => t.Accepted spoiledSite ∧ ¬ t.Spoiled spoiledSite)
      [(Rule.diagrams, {}), (Rule.formulas, {})] [("a.md", oneFormula)] results := by
  obtain ⟨outcome, results, hlint, hresults⟩ := lint_oneFormula spoiledSite
  exact ⟨outcome, results, hlint, hresults,
    lint_reports_unaccepted rfl (by decide) hlint hresults⟩

end

theorem read_ones [Host] {n : Nat} (h : Text.digitLimit < n) :
    Json.read (List.replicate n '1') = .error (.tooManyDigits n) := by
  obtain ⟨m, rfl⟩ : ∃ m, n = m + 1 := ⟨n - 1, by omega⟩
  have hdigits : Json.digits ('1' :: List.replicate m '1') = ('1' :: List.replicate m '1', []) := by
    simp [Json.digits]
  have hread : Text.readDigits ('1' :: List.replicate m '1') = .error (m + 1) := by
    simp only [Text.readDigits, List.length_cons, List.length_replicate]
    rw [if_neg (by omega)]
  rw [List.replicate_succ]
  simp [Json.read, Json.skipSpace, Json.isSpace, Json.value, Json.scalar, Json.words, Text.after?,
    List.findSome?, Json.unsigned, hdigits, Json.fraction?, Json.exponent?, hread]

theorem splitLines_ones (n : Nat) :
    Script.splitLines (List.replicate (n + 1) '1') = [List.replicate (n + 1) '1'] := by
  induction n with
  | zero => rfl
  | succ n ih =>
    have hone : Script.endsLine '1' = false := rfl
    rw [List.replicate_succ, Script.splitLines, ih]
    · simp [hone, List.replicate_succ]
    · simp

theorem splitLines_spoiledOutput :
    Script.splitLines spoiledOutput =
      [("\x7b\"ok\": true\x7d" : Text), List.replicate (Text.digitLimit + 1) '1'] := by
  generalize hn : Text.digitLimit = n
  unfold spoiledOutput
  rw [hn]
  have h := splitLines_ones n
  simp [Script.splitLines, h, Script.endsLine]

theorem answers_spoiledSite [Host] (options : Options) (code : Text) (w : World) :
    Formula.Answers spoiledSite options code w [("ok", .bool true)]
      [List.replicate (Text.digitLimit + 1) '1'] := by
  obtain ⟨settings, hsettings⟩ : ∃ settings, spoiledSite.settings? = .ok settings := ⟨_, rfl⟩
  have hread : Json.read "\x7b\"ok\": true\x7d" = .ok (.obj [("ok", .bool true)]) := by
    simp [Json.read, Json.skipSpace, Json.isSpace, Json.value, Json.member, Json.moreMembers,
      Json.quotedBody?, Json.scalar, Json.words, Text.after?, List.findSome?,
      bind, Except.bind, pure, Except.pure]
  refine ⟨.finished spoiledOutput [] 0, spoiledOutput, ⟨settings, hsettings, rfl⟩, rfl, [], _,
    splitLines_spoiledOutput, hread, ?_⟩
  intro l hl ms hms
  rw [List.mem_singleton.mp hl, read_ones (Nat.lt_succ_self _)] at hms
  simp at hms

/-- The document's only turn is that of its formula, and has no entry exactly if it passes. -/
theorem turn_of_oneFormula [Host] {site : Site} {passes : Turn → Prop}
    {results : List (Text × List Entry)}
    (h : Accounted site passes [(Rule.diagrams, {}), (Rule.formulas, {})] [("a.md", oneFormula)]
      results) :
    ∃ t : Turn, t.place = (Rule.formulas, {}, ⟨"x\n", Line.first⟩) ∧
      (results.map Prod.snd = [[]] ↔ passes t) := by
  obtain ⟨turns, last, -, hplaces, hnames, hsettles⟩ := h
  simp only [List.map_cons, List.map_nil, due_oneFormula, List.map_eq_cons_iff,
    List.map_eq_nil_iff] at hplaces
  obtain ⟨ts, rest, rfl, ⟨t, ts', rfl, hplace, rfl⟩, rfl⟩ := hplaces
  refine ⟨t, hplace, ?_⟩
  simp only [List.map_cons, List.map_nil, List.map_eq_cons_iff, List.map_eq_nil_iff] at hnames
  obtain ⟨⟨name, entries⟩, rest, rfl, rfl, rfl⟩ := hnames
  obtain ⟨slots, hslots, hperm⟩ := (List.forall₂_cons.mp hsettles).1
  obtain ⟨slot, none', ⟨hslot, -⟩, hnil, rfl⟩ := List.forall₂_cons_left_iff.mp hslots
  obtain rfl := List.forall₂_nil_left_iff.mp hnil
  rw [← hslot]
  cases slot with
  | none =>
    have : entries = [] := by simpa using hperm
    simp [this]
  | some e =>
    have : entries = [e] := by simpa using hperm
    simp [this]

theorem accepted_on_spoiledSite [Host] {t : Turn}
    (hplace : t.place = (Rule.formulas, {}, ⟨"x\n", Line.first⟩)) : t.Accepted spoiledSite := by
  simp only [Turn.place, Prod.mk.injEq] at hplace
  obtain ⟨hrule, -, hfragment⟩ := hplace
  refine ⟨"x", by rw [hfragment]; rfl, ?_⟩
  rw [hrule]
  exact ⟨_, _, _, answers_spoiledSite _ _ _, rfl, rfl⟩

theorem spoiled_on_spoiledSite [Host] {t : Turn}
    (hplace : t.place = (Rule.formulas, {}, ⟨"x\n", Line.first⟩)) : t.Spoiled spoiledSite := by
  simp only [Turn.place, Prod.mk.injEq] at hplace
  obtain ⟨hrule, -, hfragment⟩ := hplace
  refine ⟨by rw [hrule]; rfl, "x", by rw [hfragment]; rfl, .inr ⟨_, _, answers_spoiledSite _ _ _, _,
    List.mem_singleton_self _, .tooManyDigits (Text.digitLimit + 1), ?_⟩⟩
  exact Json.said?_eq_error_iff.mpr ⟨_, read_ones (Nat.lt_succ_self _), rfl⟩

section

open scoped Host.Usual

/-- A formula whose script accepts it is reported all the same if the script goes on to write a
whole number with more digits than can be read. -/
theorem accepted_formula_reported : ∃ outcome results,
    lint spoiledSite Rule.all [] [("a.md", oneFormula)] = some outcome ∧
    outcome.results = .ok results ∧
    ¬ Accounted spoiledSite (Turn.Accepted spoiledSite)
      [(Rule.diagrams, {}), (Rule.formulas, {})] [("a.md", oneFormula)] results := by
  obtain ⟨outcome, results, hlint, hresults⟩ := lint_oneFormula spoiledSite
  refine ⟨outcome, results, hlint, hresults, ?_⟩
  intro haccounted
  have hrules : Rule.enabled [] Rule.all = .ok [(Rule.diagrams, {}), (Rule.formulas, {})] := rfl
  obtain ⟨noted, s, hrun⟩ := runDocuments_of_lint hrules hlint hresults
  obtain ⟨turns, htaken, hplaces, hnames, hsettles⟩ := runDocuments_taken (by decide) hrun
  obtain ⟨t, hplace, hempty⟩ :=
    turn_of_oneFormula ⟨turns, s, htaken, hplaces, hnames, hsettles⟩
  obtain ⟨t', hplace', hempty'⟩ := turn_of_oneFormula haccounted
  have hnone : results.map Prod.snd = [[]] := hempty'.mpr (accepted_on_spoiledSite hplace')
  exact (hempty.mp hnone).2 (spoiled_on_spoiledSite hplace)

end

end Lint

end FragmentLint
