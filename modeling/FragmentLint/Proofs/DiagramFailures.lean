import FragmentLint.Proofs.FailClosed
import FragmentLint.Proofs.UnitOffsets

/-!
# What is reported for a diagram that fails

The parser of diagrams fails with any message at all. The first rule that recognizes the message
makes a diagnostic of it, and the only thing that can stand in its way is a number with too many
digits. Either way one finding is reported: it lies in the fragment, has a message, and shows a
piece of one line of the source.
-/
namespace FragmentLint

namespace Text

theorem not_mem_firstLine (t : Text) : '\n' ∉ firstLine t := by
  intro h
  have hne := List.all_eq_true.mp (List.all_takeWhile (p := (· != '\n')) (l := t)) '\n' h
  exact absurd hne (by decide)

theorem trim_subset (t : Text) : trim t ⊆ t := by
  obtain ⟨tail, ht⟩ := eq_append_trim t
  intro c hc
  rw [ht]
  exact List.mem_append_left _ (List.mem_append_right _ hc)

/-- What trimming leaves begins with no blank. -/
theorem head?_trim {t : Text} {c : Char} (h : (trim t).head? = some c) : isBlank c = false := by
  have hprefix : trim t <+: trimStart t := by
    rw [trim, trimEnd, ← List.reverse_suffix, List.reverse_reverse]
    exact List.dropWhile_suffix _
  obtain ⟨rest, hrest⟩ := hprefix
  have hstart : (t.dropWhile isBlank).head? = some c := by
    rw [← trimStart, ← hrest, List.head?_append, h]
    rfl
  have hnot := List.head?_dropWhile_not isBlank t
  rw [hstart] at hnot
  simpa using hnot

theorem firstLine_trim_ne_nil {t : Text} (h : trim t ≠ []) : firstLine (trim t) ≠ [] := by
  obtain ⟨c, rest, hcons⟩ := List.exists_cons_of_ne_nil h
  have hblank : isBlank c = false := head?_trim (by rw [hcons]; rfl)
  have hfeed : (c != '\n') = true := by
    rw [bne_iff_ne]
    rintro rfl
    exact absurd hblank (by decide)
  rw [hcons, firstLine, List.takeWhile_cons, if_pos hfeed]
  exact List.cons_ne_nil _ _

theorem nonempty?_eq_some_iff {t u : Text} : nonempty? t = some u ↔ t = u ∧ u ≠ [] := by
  by_cases h : t = []
  · simp only [nonempty?, h, if_true, reduceCtorEq, false_iff]
    rintro ⟨rfl, hne⟩
    exact hne rfl
  · simp only [nonempty?, h, if_false, Option.some.injEq]
    constructor
    · rintro rfl
      exact ⟨rfl, h⟩
    · rintro ⟨rfl, -⟩
      rfl

end Text

namespace Shape

open Text

def digits? : Shape → Option Text
  | .parseError digits | .lexicalError digits | .unexpectedCharacter _ digits => some digits
  | .noDiagramType | .expectedToken _ | .alternatives => none

/-- The names of the rules whose shapes quote digits. -/
def numbered : List Text :=
  ["parse-error", "lexical-error", "unexpected-character"]

/-- A rule is the first one to recognize a message. -/
def FirstRule (message : Text) (r : Rule) (shape : Shape) : Prop :=
  ∃ before after, rules = before ++ r :: after ∧ (∀ q ∈ before, q.find? message = none) ∧
    r.find? message = some shape

theorem FirstRule.mem_rules {message : Text} {r : Rule} {shape : Shape}
    (h : FirstRule message r shape) : r ∈ rules := by
  obtain ⟨before, after, hrules, -, -⟩ := h
  rw [hrules]
  exact List.mem_append_right _ List.mem_cons_self

theorem FirstRule.find? {message : Text} {r : Rule} {shape : Shape}
    (h : FirstRule message r shape) : r.find? message = some shape := by
  obtain ⟨-, -, -, -, hfound⟩ := h
  exact hfound

theorem of?_eq_some_iff {message : Text} {shape : Shape} :
    of? message = some shape ↔ ∃ r, FirstRule message r shape := by
  unfold of? recognize? FirstRule
  simp only [Option.map_eq_some_iff, List.findSome?_eq_some_iff, Option.map_eq_none_iff]
  constructor
  · rintro ⟨_, ⟨before, r, after, hrules, ⟨found, hfound, rfl⟩, hbefore⟩, rfl⟩
    exact ⟨r, before, after, hrules, hbefore, hfound⟩
  · rintro ⟨r, before, after, hrules, hbefore, hfound⟩
    exact ⟨_, ⟨before, r, after, hrules, ⟨shape, hfound, rfl⟩, hbefore⟩, rfl⟩

/-- What a search finds was read somewhere. -/
theorem read_of_search {α : Type} {read? : Text → Option α} {t : Text} {found : α}
    (h : search read? t = some found) : ∃ u, read? u = some found := by
  induction t with
  | nil => exact ⟨[], h⟩
  | cons c t ih =>
    obtain hhere | ⟨-, hbehind⟩ := Option.or_eq_some_iff.mp h
    · exact ⟨_, hhere⟩
    · exact ih hbehind

/-- A line feed is never the character that was rejected. -/
theorem eq_of_unexpectedCharacterAt? {t : Text} {shape : Shape}
    (h : unexpectedCharacterAt? t = some shape) :
    ∃ c digits, shape = .unexpectedCharacter c digits ∧ c ≠ '\n' := by
  unfold unexpectedCharacterAt? at h
  split at h
  · split at h
    · cases h
    · rename_i hne
      simp only [Option.bind_eq_bind, Option.bind_eq_some_iff, Option.some.injEq] at h
      obtain ⟨-, -, ⟨digits, -⟩, -, rfl⟩ := h
      exact ⟨_, digits, rfl, hne⟩
  · cases h

/-- Each rule reads shapes of one kind, so its name tells whether they quote digits. -/
theorem digits?_isSome_iff {r : Rule} (hr : r ∈ rules) {message : Text} {shape : Shape}
    (h : r.find? message = some shape) : shape.digits?.isSome ↔ r.name ∈ numbered := by
  obtain ⟨t, ht⟩ := read_of_search h
  simp only [rules, List.mem_cons, List.not_mem_nil, or_false] at hr
  obtain rfl | rfl | rfl | rfl | rfl | rfl := hr
  · simp only [parseErrorAt?, Option.bind_eq_bind, Option.bind_eq_some_iff, Option.some.injEq] at ht
    obtain ⟨-, -, ⟨-, -⟩, -, -, -, rfl⟩ := ht
    exact iff_of_true rfl (by decide)
  · simp only [lexicalErrorAt?, Option.bind_eq_bind, Option.bind_eq_some_iff, Option.some.injEq]
      at ht
    obtain ⟨-, -, ⟨-, -⟩, -, rfl⟩ := ht
    exact iff_of_true rfl (by decide)
  · obtain ⟨-, -, rfl⟩ := Option.map_eq_some_iff.mp ht
    exact iff_of_false (by simp [digits?]) (by decide)
  · obtain ⟨c, digits, rfl, -⟩ := eq_of_unexpectedCharacterAt? ht
    exact iff_of_true rfl (by decide)
  · simp only [expectedTokenAt?, Option.bind_eq_bind, Option.bind_eq_some_iff, Option.some.injEq]
      at ht
    obtain ⟨-, -, -, -, rfl⟩ := ht
    exact iff_of_false (by simp [digits?]) (by decide)
  · obtain ⟨-, -, rfl⟩ := Option.map_eq_some_iff.mp ht
    exact iff_of_false (by simp [digits?]) (by decide)

/-- The first rule that recognizes a message reads a number with more digits than can be read. -/
def Overlong (message digits : Text) : Prop :=
  ∃ r shape, FirstRule message r shape ∧ r.name ∈ numbered ∧ shape.digits? = some digits ∧
    digitLimit < digits.length

theorem overlong_iff {message digits : Text} :
    Overlong message digits ↔ ∃ shape, of? message = some shape ∧ shape.digits? = some digits ∧
      digitLimit < digits.length := by
  constructor
  · rintro ⟨r, shape, hfirst, -, hdigits, hlong⟩
    exact ⟨shape, of?_eq_some_iff.mpr ⟨r, hfirst⟩, hdigits, hlong⟩
  · rintro ⟨shape, hshape, hdigits, hlong⟩
    obtain ⟨r, hfirst⟩ := of?_eq_some_iff.mp hshape
    have hnumbered := (digits?_isSome_iff hfirst.mem_rules hfirst.find?).mp (by rw [hdigits]; rfl)
    exact ⟨r, shape, hfirst, hnumbered, hdigits, hlong⟩

/-- An excerpt stands on one line of the message. -/
theorem not_mem_excerpt? {c : Char} {lines : List Text} {excerpt : Text}
    (hlines : ∀ l ∈ lines, c ∉ l) (h : excerpt? lines = some excerpt) : c ∉ excerpt := by
  induction lines with
  | nil => cases h
  | cons above lines ih =>
    obtain ⟨habove, hlines⟩ := List.forall_mem_cons.mp hlines
    cases lines with
    | nil => cases h
    | cons line rest =>
      rw [excerpt?] at h
      split at h
      · cases h
      · split at h
        · obtain rfl := Option.some.inj h
          intro hc
          have hinside := trim_subset _ hc
          cases hdots : after? "..." above with
          | none =>
            rw [hdots, Option.getD_none] at hinside
            exact habove hinside
          | some t =>
            rw [hdots, Option.getD_some] at hinside
            rw [after?_eq_some_iff.mp hdots] at habove
            exact habove (List.mem_append_right _ hinside)
        · exact ih hlines h

end Shape

namespace FreeText

open Text

theorem number_eq_error_iff {digits : Text} {fault : ValueFault} :
    number digits = .error fault ↔
      digitLimit < digits.length ∧ fault = .tooManyDigits digits.length := by
  unfold number readDigits
  by_cases h : digits.length ≤ digitLimit
  · rw [if_pos h]
    simp [Nat.not_lt.mpr h]
  · rw [if_neg h]
    simp [Nat.not_le.mp h, eq_comm]

/-- A message of a known shape gives a diagnostic unless it quotes too many digits. -/
theorem ofShape_eq_error_iff {shape : Shape} {message code : Text} {fault : ValueFault} :
    ofShape shape message code = .error fault ↔ ∃ digits, shape.digits? = some digits ∧
      digitLimit < digits.length ∧ fault = .tooManyDigits digits.length := by
  have hbind : ∀ (digits : Text) (build : Nat → Diagnostic),
      (number digits >>= fun n => (.ok (build n) : Except ValueFault Diagnostic)) = .error fault ↔
        digitLimit < digits.length ∧ fault = .tooManyDigits digits.length := by
    intro digits build
    rw [← number_eq_error_iff]
    cases number digits <;> simp [bind, Except.bind]
  cases shape with
  | parseError digits =>
    simp only [Shape.digits?, Option.some.injEq, exists_eq_left']
    exact hbind digits fun n => Template.positionalParseFailure (line? n)
      (parseErrorText message).1 (parseErrorText message).2 (Shape.excerpt? (lines message))
  | lexicalError digits =>
    simp only [Shape.digits?, Option.some.injEq, exists_eq_left']
    exact hbind digits fun n => Template.lexicalFailure (line? n)
  | noDiagramType => simp [ofShape, Shape.digits?]
  | unexpectedCharacter c digits =>
    simp only [Shape.digits?, Option.some.injEq, exists_eq_left']
    exact hbind digits fun n => Template.unexpectedCharacter
      (Line.first.down (Position.linesBefore (lines code) (indexOfUnits code n))) [c]
  | expectedToken kind => simp [ofShape, Shape.digits?]
  | alternatives => simp [ofShape, Shape.digits?]

theorem diagnose_eq_error_iff {message code : Text} {fault : ValueFault} :
    diagnose message code = .error fault ↔
      ∃ digits, Shape.Overlong message digits ∧ fault = .tooManyDigits digits.length := by
  simp only [Shape.overlong_iff, diagnose]
  cases Shape.of? message with
  | none => simp
  | some shape =>
    simp only [ofShape_eq_error_iff, Option.some.injEq, exists_eq_left', and_assoc]

/-- A diagnostic as it should be: it says something, has a code of the stage that parses free text,
a line of the fragment if it has one, and a context on one line. -/
structure WellFormed (d : Diagnostic) : Prop where
  message : d.message ≠ []
  code : 2000 ≤ d.code.number ∧ d.code.number < 3000
  line : ∀ l, d.line = some l → 1 ≤ l.number
  context : ∀ t, d.context = some t → '\n' ∉ t

theorem wellFormed_of_code {d : Diagnostic} (c : Code) (hcode : d.code = c)
    (hnumber : 2000 ≤ c.number ∧ c.number < 3000)
    (hcontext : ∀ t, d.context = some t → '\n' ∉ t) : WellFormed d :=
  ⟨d.message_ne_nil, hcode ▸ hnumber, fun l _ => l.positive, hcontext⟩

/-- A diagnostic that was built around a number. -/
theorem built_of_number {digits : Text} {d : Diagnostic} (build : Nat → Diagnostic)
    (h : (number digits >>= fun n => (.ok (build n) : Except ValueFault Diagnostic)) = .ok d) :
    digits.length ≤ digitLimit ∧ ∃ n, build n = d := by
  unfold number readDigits at h
  by_cases hlength : digits.length ≤ digitLimit
  · rw [if_pos hlength] at h
    exact ⟨hlength, _, Except.ok.inj h⟩
  · rw [if_neg hlength] at h
    cases h

theorem wellFormed_ofShape {shape : Shape} {message code : Text} {d : Diagnostic}
    (h : ofShape shape message code = .ok d) : WellFormed d := by
  cases shape with
  | parseError digits =>
    obtain ⟨-, n, rfl⟩ := built_of_number (fun n => Template.positionalParseFailure (line? n)
      (parseErrorText message).1 (parseErrorText message).2 (Shape.excerpt? (lines message))) h
    exact wellFormed_of_code .positionalParseFailure rfl (by decide) fun t ht =>
      Shape.not_mem_excerpt? (fun l hl => not_mem_of_mem_lines hl) ht
  | lexicalError digits =>
    obtain ⟨-, n, rfl⟩ := built_of_number (fun n => Template.lexicalFailure (line? n)) h
    exact wellFormed_of_code .lexicalFailure rfl (by decide) nofun
  | noDiagramType =>
    obtain rfl := Except.ok.inj h
    refine wellFormed_of_code .unknownEntryPoint rfl (by decide) fun t ht => ?_
    obtain ⟨rfl, -⟩ := nonempty?_eq_some_iff.mp ht
    intro hfeed
    exact not_mem_firstLine code (trim_subset _ (List.mem_of_mem_take hfeed))
  | unexpectedCharacter c digits =>
    obtain ⟨-, n, rfl⟩ := built_of_number (fun n => Template.unexpectedCharacter
      (Line.first.down (Position.linesBefore (lines code) (indexOfUnits code n))) [c]) h
    exact wellFormed_of_code .unexpectedCharacter rfl (by decide) nofun
  | expectedToken kind =>
    obtain rfl := Except.ok.inj h
    exact wellFormed_of_code .expectedToken rfl (by decide) nofun
  | alternatives =>
    obtain rfl := Except.ok.inj h
    exact wellFormed_of_code .enumeratedAlternativesFailure rfl (by decide) nofun

theorem wellFormed_unknown (message : Text) : WellFormed (Template.unknownFailureFormat message) :=
  wellFormed_of_code .unknownFailureFormat rfl (by decide) nofun

theorem wellFormed_of_diagnose {message code : Text} {d : Diagnostic}
    (h : diagnose message code = .ok d) : WellFormed d := by
  unfold diagnose at h
  cases hshape : Shape.of? message with
  | some shape =>
    rw [hshape] at h
    exact wellFormed_ofShape h
  | none =>
    rw [hshape] at h
    obtain rfl := Except.ok.inj h
    exact wellFormed_unknown message

/-- The start of the first line of a trimmed fragment is never empty. -/
theorem fallbackContext_trim {code : Text} (h : trim code ≠ []) :
    ∃ t, fallbackContext (trim code) = some t ∧ t ≠ [] ∧ '\n' ∉ t := by
  have hne : (firstLine (trim code)).take Template.contextLimit ≠ [] := by
    rw [Ne, List.take_eq_nil_iff, not_or]
    exact ⟨by decide, firstLine_trim_ne_nil h⟩
  refine ⟨_, nonempty?_eq_some_iff.mpr ⟨rfl, hne⟩, hne, ?_⟩
  intro hfeed
  exact not_mem_firstLine _ (List.mem_of_mem_take hfeed)

/-- The context of a finding is that of its diagnostic, or the start of the fragment. -/
theorem orContext_cases (context fallback : Option Text) :
    (∃ t, context = some t ∧ t ≠ [] ∧ Diagnostic.orContext context fallback = some t) ∨
      Diagnostic.orContext context fallback = fallback := by
  cases context with
  | none => exact .inr rfl
  | some t =>
    cases t with
    | nil => exact .inr rfl
    | cons c t => exact .inl ⟨_, rfl, List.cons_ne_nil _ _, rfl⟩

/-- A finding as it should be for a fragment. -/
structure Shown (f : Fragment) (finding : Finding) : Prop where
  message : finding.message ≠ []
  line : f.start.number ≤ finding.line.number
  context : ∃ t, finding.context = some t ∧ t ≠ [] ∧ '\n' ∉ t

theorem WellFormed.shown {d : Diagnostic} (h : WellFormed d) {f : Fragment}
    (hcode : trim f.code ≠ []) :
    Shown f (d.anchor f.start (fallbackContext (trim f.code))) where
  message := h.message
  line := Diagnostic.le_line_anchor _ _ _
  context := by
    obtain ⟨t, hcontext, hne, hshown⟩ | hshown :=
      orContext_cases d.context (fallbackContext (trim f.code))
    · exact ⟨t, hshown, hne, h.context t hcontext⟩
    · obtain ⟨t, hfallback, hne, hfeed⟩ := fallbackContext_trim hcode
      exact ⟨t, hshown.trans hfallback, hne, hfeed⟩

/-- The finding lies on the line that the diagnosis names, counted from the line on which the
fragment starts, or on that line if the diagnosis names none. -/
def Placed (start : Line) (diagnosis : Except ValueFault Diagnostic) (finding : Finding) : Prop :=
  match diagnosis with
  | .ok d => match d.line with
    | some l => finding.line.number = start.number + l.number - 1
    | none => finding.line = start
  | .error _ => finding.line = start

theorem placed_anchor {d : Diagnostic} {start : Line} {fallback : Option Text} :
    Placed start (.ok d) (d.anchor start fallback) := by
  unfold Placed
  dsimp only
  cases hline : d.line with
  | none =>
    have hdepth : d.depth = 0 := by simp [Diagnostic.depth, hline]
    show start.down d.depth = start
    rw [hdepth, Line.down_zero]
  | some l =>
    have hpositive := l.positive
    have hdepth : d.depth = l.number - 1 := by simp [Diagnostic.depth, hline]
    rw [Diagnostic.number_line_anchor, hdepth]
    omega

/-- What the pipeline of diagrams makes of a failure. -/
theorem judge_of_failure (parser : Text) {f : Fragment} (failure : Failure)
    (hcode : trim f.code ≠ []) :
    ∃ finding, (Family.mermaid.pipeline.judge parser f.trimmed (.rejected failure)).1 =
        some finding ∧
      Placed f.start (diagnose failure.message (trim f.code)) finding ∧ Shown f finding := by
  cases hd : diagnose failure.message (trim f.code) with
  | ok d =>
    have hjudge : (Family.mermaid.pipeline.judge parser f.trimmed (.rejected failure)).1 =
        some (d.anchor f.start (fallbackContext (trim f.code))) := by
      simp [Pipeline.judge, Verdict.failure?, Pipeline.diagnosis, Family.pipeline,
        Fragment.trimmed, hd, Except.toOption]
    exact ⟨_, hjudge, placed_anchor, (wellFormed_of_diagnose hd).shown hcode⟩
  | error fault =>
    have hjudge : (Family.mermaid.pipeline.judge parser f.trimmed (.rejected failure)).1 =
        some ((Template.unknownFailureFormat failure.message).anchor f.start
          (fallbackContext (trim f.code))) := by
      simp [Pipeline.judge, Verdict.failure?, Pipeline.diagnosis, Family.pipeline,
        Fragment.trimmed, hd, Except.toOption]
    exact ⟨_, hjudge, rfl, (wellFormed_unknown _).shown hcode⟩

/-- A message that names a line, quotes it, and points at a place in it. -/
def pointing : Failure :=
  ⟨"Parse error on line 3:\n...A -->\n----^\nExpecting 'NODE', got 'EOF'", none, false⟩

/-- Whatever the message with which a diagram fails, one finding is reported. The message has no
diagnostic of its own exactly if the first rule that recognizes it meets too many digits. -/
theorem failure_reported_once {σ : Type} {c : Checker σ} {s : σ} {f : Fragment} {code : Text}
    {answer : Checked σ} {failure : Failure} (hasked : f.asked? = some code)
    (hcheck : c.check code s = some answer) (hfails : answer.verdict = .rejected failure) :
    (∀ fault, diagnose failure.message code = .error fault ↔
      ∃ digits, Shape.Overlong failure.message digits ∧ fault = .tooManyDigits digits.length) ∧
    (∀ d, diagnose failure.message code = .ok d → WellFormed d) ∧
    ∃ events finding, Family.mermaid.pipeline.run c .full [f] s = some (events, answer.state) ∧
      Event.findings events = [finding] ∧
      Placed f.start (diagnose failure.message code) finding ∧ Shown f finding := by
  refine ⟨fun fault => diagnose_eq_error_iff, fun d => wellFormed_of_diagnose, ?_⟩
  obtain ⟨hcode, hne⟩ := Fragment.asked?_eq_some_iff.mp hasked
  rw [hcode] at hne
  obtain ⟨finding, hjudge, hplaced, hshown⟩ := judge_of_failure c.name failure hne
  have hvisits : c.visits? [f] s = some ([⟨f, s, some answer⟩], answer.state) := by
    rw [Checker.visits?, Checker.visit?_asked _ hasked, hcheck]
    rfl
  have hrun := Family.mermaid.pipeline.run_outside c rfl [f] s
  rw [hvisits] at hrun
  obtain ⟨⟨events, t⟩, hevents, hout⟩ := Option.map_eq_some_iff.mp hrun
  have hfound : (⟨f, s, some answer⟩ : Visit σ).finding? Family.mermaid.pipeline c.name =
      some finding := by
    rw [← hjudge, ← hfails]
    rfl
  simp only [Pipeline.outside, Pipeline.outsideOf, List.filterMap_cons_some hfound,
    List.filterMap_nil, Prod.mk.injEq] at hout
  obtain ⟨hfindings, -, rfl⟩ := hout
  exact ⟨events, finding, hevents, hfindings, hcode ▸ hplaced, hshown⟩

theorem failure_reported_once_pointing : ∃ events finding,
    Family.mermaid.pipeline.run (.ofVerdicts "mermaid" true fun _ => .rejected pointing) .full
        [⟨"graph TD\n\nA -->\n", ⟨7, by decide⟩⟩] () = some (events, ()) ∧
      Event.findings events = [finding] ∧ finding.line.number = 9 := by
  have hasked : Fragment.asked? ⟨"graph TD\n\nA -->\n", ⟨7, by decide⟩⟩ =
      some "graph TD\n\nA -->" := by decide
  have hcheck : (Checker.ofVerdicts "mermaid" true fun _ => .rejected pointing).check
      "graph TD\n\nA -->" () = some ⟨.rejected pointing, [], ()⟩ := rfl
  obtain ⟨-, -, events, finding, hrun, hfindings, hplaced, -⟩ :=
    failure_reported_once hasked hcheck rfl
  exact ⟨events, finding, hrun, hfindings, hplaced⟩

end FreeText

end FragmentLint
