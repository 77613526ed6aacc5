import FragmentLint.Proofs.RunAccount

/-!
# Checks of the structure alone

What can be told of a diagram without its parser is stated here by its lines: the first one that is
neither blank nor a comment has to begin with a letter. A run in basic mode reports exactly the
diagrams that are blank or do not open so, and asks nothing. Linting with diagrams in basic mode
therefore comes to an end whatever a process for them would do, and starts none.
-/
namespace FragmentLint

theorem Text.startsWith_iff {t p : Text} : startsWith t p = true ↔ p <+: t := by
  rw [startsWith, Option.isSome_iff_exists]
  constructor
  · rintro ⟨rest, h⟩
    exact ⟨rest, (after?_eq_some_iff.mp h).symm⟩
  · rintro ⟨rest, rfl⟩
    exact ⟨rest, after?_eq_some_iff.mpr rfl⟩

namespace Precheck

open Text

/-- A line that says nothing: it is blank, or a comment. -/
def Idle (line : Text) : Prop :=
  trim line = [] ∨ "%%" <+: trim line

/-- A code opens with a word: its first line that says anything begins with a letter. -/
def Opens (code : Text) : Prop :=
  ∃ before line behind, lines code = before ++ line :: behind ∧ (∀ l ∈ before, Idle l) ∧
    ¬ Idle line ∧ ∃ c ∈ (trim line).head?, c.isAlpha = true

/-- What is due for a fragment when only its structure is checked. -/
inductive Due (family : Family) (f : Fragment) : Option Finding → Prop where
  /-- The fragment is blank. -/
  | blank (hblank : trim f.code = []) : Due family f (some (Template.emptyContent family f.start))
  /-- The fragment does not open with a word, or says nothing at all. -/
  | unopened (hcode : trim f.code ≠ []) (hclosed : ¬ Opens (trim f.code)) :
    Due family f (some
      { line := f.start
        message := "Missing diagram type declaration"
        hint := some "Start with a diagram type like: flowchart, sequenceDiagram, classDiagram"
        context := some ((trim (firstLine (trim f.code))).take 40)
        code := some .missingEntryPoint })
  | opened (hcode : trim f.code ≠ []) (hopen : Opens (trim f.code)) : Due family f none

/-- The findings are those due for the fragments when only their structure is checked, in their
order. -/
def Structural (family : Family) (fragments : List Fragment) (found : List Finding) : Prop :=
  ∃ dues, List.Forall₂ (Due family) fragments dues ∧ found = dues.filterMap id

theorem isSkipped_iff {line : Text} : isSkipped (trim line) = true ↔ Idle line := by
  rw [isSkipped, Bool.or_eq_true, List.isEmpty_iff, startsWith_iff, Idle, commentMark]

theorem hasEntryPoint_iff {code : Text} : hasEntryPoint code = true ↔ Opens code := by
  have hfirst : ∀ line, (lines code).find? ((!isSkipped ·) ∘ trim) = some line ↔
      ¬ Idle line ∧ ∃ before behind, lines code = before ++ line :: behind ∧
        ∀ l ∈ before, Idle l := by
    intro line
    simp only [List.find?_eq_some_iff_append, Function.comp_apply, Bool.not_not, isSkipped_iff,
      Bool.not_eq_true', ← Bool.not_eq_true]
  rw [hasEntryPoint, List.find?_map, Option.any_map, Option.any_eq_true]
  constructor
  · rintro ⟨line, hline, hword⟩
    obtain ⟨hspoken, before, behind, hlines, hidle⟩ := (hfirst line).mp hline
    exact ⟨before, line, behind, hlines, hidle, hspoken, (Option.any_eq_true _ _).mp hword⟩
  · rintro ⟨before, line, behind, hlines, hidle, hspoken, hletter⟩
    exact ⟨line, (hfirst line).mpr ⟨hspoken, before, behind, hlines, hidle⟩,
      (Option.any_eq_true _ _).mpr hletter⟩

end Precheck

namespace Pipeline

open Precheck

/-- Without the parser, a fragment is found to have what is due for it. -/
theorem basicFinding_due (p : Pipeline) (f : Fragment) : Due p.family f (p.basicFinding f) := by
  rw [basicFinding]
  cases ha : f.asked? with
  | none =>
    rw [f.notEmpty_of_blank p.family ha]
    exact .blank (Fragment.asked?_eq_none_iff.mp ha)
  | some code =>
    obtain ⟨hok, rfl⟩ := f.notEmpty_of_asked p.family ha
    have hne := (Fragment.asked?_eq_some_iff.mp ha).2
    rw [hok]
    dsimp only [entryPoint]
    split
    · rename_i hopen
      exact .opened hne (hasEntryPoint_iff.mp hopen)
    · rename_i hclosed
      exact .unopened hne (mt hasEntryPoint_iff.mpr hclosed)

theorem runBasic_structural (p : Pipeline) (fragments : List Fragment) :
    Structural p.family fragments (Event.findings (p.runBasic fragments)) := by
  refine ⟨fragments.map p.basicFinding, ?_, ?_⟩
  · rw [List.forall₂_map_right_iff, List.forall₂_same]
    exact fun f _ => p.basicFinding_due f
  · rw [runBasic, Event.findings_map_report, List.filterMap_map]
    rfl

end Pipeline

namespace Lint

/-- Diagrams are checked in basic mode only. -/
def Spared (rules : List (Rule × Options)) : Prop :=
  ∀ r ∈ rules, r.1.family = .mermaid → r.2.basic = true

theorem mem_enabled {config : Json.Members} {rules : List Rule} {enabled : List (Rule × Options)}
    (h : Rule.enabled config rules = .ok enabled) {r : Rule × Options} (hr : r ∈ enabled) :
    r.1 ∈ rules ∧ r.1.options? config = .ok (some r.2) := by
  induction rules generalizing enabled with
  | nil =>
    obtain rfl := Except.ok.inj h
    cases hr
  | cons first rules ih =>
    simp only [Rule.enabled, bind, Except.bind, pure, Except.pure] at h
    split at h
    · cases h
    · rename_i options hoptions
      split at h
      · cases h
      · rename_i others hothers
        obtain rfl := Except.ok.inj h
        obtain hfirst | hrest := List.mem_append.mp hr
        · obtain ⟨o, ho, rfl⟩ : ∃ o, options = some o ∧ (first, o) = r := by
            simpa using hfirst
          rw [ho] at hoptions
          exact ⟨List.mem_cons_self, hoptions⟩
        · obtain ⟨hmem, hgiven⟩ := ih hothers hrest
          exact ⟨List.mem_cons_of_mem _ hmem, hgiven⟩

theorem total_checker [Host] {r : Rule} (hfamily : r.family = .math) (site : Site)
    (options : Options) :
    (r.checker site options).Total := by
  intro code s
  rw [Rule.checker, hfamily]
  rfl

theorem asks_of_spared {options : Options} (h : options.basic = true) :
    Family.mermaid.pipeline.asks options.mode = false := by
  simp [Pipeline.asks, Options.mode, h, Family.pipeline]

section Spared

variable {site : Site} {rules : List (Rule × Options)}

/-- A rule that spares diagrams comes to an end. -/
theorem run_of_spared [Host] {r : Rule} {options : Options}
    (h : r.family = .mermaid → options.basic = true) (site : Site) (tokens : List (Token Line))
    (s : Shared World) : ∃ events t,
    r.run options (r.checker site options) tokens s = some (events, t) := by
  suffices hsome : (r.run options (r.checker site options) tokens s).isSome by
    obtain ⟨⟨events, t⟩, hrun⟩ := Option.isSome_iff_exists.mp hsome
    exact ⟨events, t, hrun⟩
  cases hfamily : r.family with
  | mermaid =>
    have hmode : options.mode = .basic ∧ Family.mermaid.pipeline.hasBasic = true := by
      simp [Options.mode, h hfamily, Family.pipeline]
    rw [Rule.run, hfamily, Pipeline.run, if_pos hmode]
    rfl
  | math => exact Pipeline.run_isSome _ (total_checker hfamily site options) _ _ _

theorem runRules_of_spared [Host] (h : Spared rules) (site : Site) (tokens : List (Token Line))
    (s : Shared World) : ∃ entries noted t,
    runRules site tokens rules s = some (entries, noted, t) := by
  induction rules generalizing s with
  | nil => exact ⟨_, _, _, rfl⟩
  | cons r rules ih =>
    obtain ⟨hfirst, hrest⟩ := List.forall_mem_cons.mp h
    obtain ⟨events, t, hrun⟩ := run_of_spared hfirst site tokens s
    obtain ⟨entries, noted, u, hothers⟩ := ih hrest t
    exact ⟨_, _, u, runRules_cons_eq_some_iff.mpr ⟨_, _, _, _, hrun, hothers, rfl, rfl⟩⟩

theorem runDocuments_of_spared [Host] (h : Spared rules) (site : Site)
    (documents : List (Text × Text)) (s : Shared World) : ∃ results noted t,
    runDocuments site rules documents s = some (results, noted, t) := by
  induction documents generalizing s with
  | nil => exact ⟨_, _, _, rfl⟩
  | cons d documents ih =>
    obtain ⟨entries, noted, t, hrun⟩ := runRules_of_spared h site (Markdown.tokenize d.2) s
    obtain ⟨results, more, u, hothers⟩ := ih t
    exact ⟨_, _, u, runDocuments_cons_eq_some_iff.mpr ⟨_, _, _, _, _, hrun, hothers, rfl, rfl⟩⟩

/-- No task of rules that spare diagrams is about one. -/
theorem diagrams_of_spared (h : Spared rules) (documents : List (Text × Text)) :
    (tasks rules documents).filterMap Task.diagram? = [] := by
  rw [List.filterMap_eq_nil_iff]
  intro task htask
  obtain ⟨d, -, htask⟩ := List.mem_flatMap.mp htask
  obtain ⟨r, hr, htask⟩ := List.mem_flatMap.mp htask
  obtain ⟨code, hcode, rfl⟩ := List.mem_map.mp htask
  cases hfamily : r.1.family with
  | mermaid =>
    rw [codesIn, hfamily, asks_of_spared (h r hr hfamily)] at hcode
    cases hcode
  | math => simp [Task.diagram?, hfamily]

/-- A run that spares diagrams comes to an end and starts no process for them. -/
theorem lint_of_spared [Host] {config : Json.Members} {rules : List Rule}
    (h : ∀ r ∈ rules, r.family = .mermaid → ∀ options, r.options? config = .ok (some options) →
      options.basic = true) (site : Site) (documents : List (Text × Text)) :
    ∃ outcome, lint site rules config documents = some outcome ∧
      outcome.world.attempts .mermaid = 0 ∧ outcome.world.sessions = [] := by
  rw [lint]
  cases henabled : Rule.enabled config rules with
  | error fault => exact ⟨_, rfl, rfl, rfl⟩
  | ok enabled =>
    have hspared : Spared enabled := by
      intro r hr hfamily
      obtain ⟨hmem, hoptions⟩ := mem_enabled henabled hr
      exact h r.1 hmem hfamily r.2 hoptions
    obtain ⟨results, noted, s, hrun⟩ :=
      runDocuments_of_spared hspared site documents { world := {} }
    have hserved := served_of_behind? (behind?_of_runDocuments hrun)
    rw [diagrams_of_spared hspared] at hserved
    obtain ⟨hmemo, hattempts, hsessions⟩ := hserved.idle
    dsimp only
    rw [hrun, Option.bind_eq_bind, Option.bind_some, closeRules_idle hmemo]
    exact ⟨_, rfl, hattempts, hsessions⟩

end Spared

/-- Basic mode is the check of the structure. Whatever the parser of diagrams is, a run in that mode
leaves it alone and reports what is due for each fragment, in their order. Linting with all rules
for diagrams in that mode, or turned off, comes to an end and starts no process for diagrams. -/
theorem basic_checks_structure [Host] :
    (∀ {σ : Type} (c : Checker σ) (fragments : List Fragment) (s : σ), ∃ found,
      Precheck.Structural .mermaid fragments found ∧
      Family.mermaid.pipeline.run c .basic fragments s = some (found.map .report, s)) ∧
    ∀ (site : Site) (rules : List Rule) (config : Json.Members) (documents : List (Text × Text)),
      (∀ r ∈ rules, r.family = .mermaid → ∀ options, r.options? config = .ok (some options) →
        options.basic = true) →
      ∃ outcome, lint site rules config documents = some outcome ∧
        outcome.world.attempts .mermaid = 0 ∧ outcome.world.sessions = [] := by
  refine ⟨?_, fun site rules config documents h => lint_of_spared h site documents⟩
  intro σ c fragments s
  have hfound := Family.mermaid.pipeline.runBasic_structural fragments
  rw [Pipeline.runBasic, Event.findings_map_report] at hfound
  exact ⟨_, hfound, by rw [Pipeline.run, if_pos ⟨rfl, rfl⟩, Pipeline.runBasic]⟩

/-- A diagram that opens with a word behind a comment, one that does not, and a formula. -/
def sparedDocuments : List (Text × Text) :=
  [("a.md", "```mermaid\n%% first\npie\n```\n\n```mermaid\n--> A\n```\n\n```math\nx\n```")]

section

open scoped Host.Usual

theorem basic_checks_structure_sparedDocuments : ∃ outcome,
    lint echoSite Rule.all [("mermaid-syntax", .obj [("basic", .bool true)])] sparedDocuments =
      some outcome ∧
    outcome.world.attempts .mermaid = 0 ∧ outcome.world.sessions = [] := by
  refine basic_checks_structure.2 _ _ _ _ ?_
  intro r hr hfamily options hoptions
  have hbasic : Rule.diagrams.options? [("mermaid-syntax", .obj [("basic", .bool true)])] =
      .ok (some { basic := true }) :=
    rfl
  obtain rfl | hr := List.mem_cons.mp hr
  · rw [hbasic] at hoptions
    obtain rfl := Option.some.inj (Except.ok.inj hoptions)
    rfl
  · obtain rfl := List.mem_singleton.mp hr
    cases hfamily

end

end Lint

end FragmentLint
