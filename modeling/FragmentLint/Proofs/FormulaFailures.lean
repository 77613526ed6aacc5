import FragmentLint.Failure.Structured
import FragmentLint.Proofs.CarrierScan
import FragmentLint.Proofs.SimpleReports

/-!
# What is reported for a formula that fails

The parser of formulas tells where it failed, so nothing has to be read out of its message but the
name with which it begins. The line is that of the place, counted from one and never beyond the
last line, and the context is a window of one line around the place: the character at which parsing
failed stands in its middle, or as far behind its start as the place is behind that of the formula.
A failure of another kind, or one without a place, is reported without a line.
-/
namespace FragmentLint

namespace Text

theorem occursIn_iff {p t : Text} : occursIn p t = true ↔ p <:+: t := by
  induction t with
  | nil => rw [occursIn, startsWith_iff, List.prefix_nil, List.infix_nil]
  | cons c t ih => rw [occursIn, Bool.or_eq_true, startsWith_iff, ih, List.infix_cons_iff]

end Text

namespace Diagnostic

/-- A diagnostic passes the checks that its parts have to pass. -/
theorem make?_self (d : Diagnostic) :
    make? d.code d.message (d.line.map fun l => (l.number : Int)) d.hint d.context = .ok d := by
  have hline : line? (d.line.map fun l => (l.number : Int)) = .ok d.line := by
    cases h : d.line with
    | none => rfl
    | some l => rw [Option.map_some, line?, Line.ofInt?_number]
  rw [make?, dif_neg d.message_ne_nil, hline]
  rfl

end Diagnostic

namespace Position

open Text

/-- No place lies below the last line. -/
theorem newlines_take_lt (source : Text) (place : Nat) :
    newlines (source.take place) < (lines source).length := by
  have hwhole : newlines (source.take place) + newlines (source.drop place) = newlines source := by
    rw [← newlines_append, List.take_append_drop]
  rw [length_lines]
  omega

def shown (c : Char) : Char :=
  if c = '\n' then ' ' else c

/-- The context of a place is what stands around it, cut at both ends of the text. -/
theorem context_eq (source : Text) (place radius : Nat) :
    context source place radius =
      ((source.take (place + radius)).drop (place - radius)).map shown := by
  have hstart : (max 0 ((place : Int) - radius)).toNat = place - radius := by omega
  have hstop : ¬ min (source.length : Int) (place + radius) < 0 := by omega
  have hcut : (min (source.length : Int) (place + radius)).toNat =
      min (place + radius) source.length := by omega
  have hslice : slice source (place - radius) (min source.length (place + radius)) =
      (source.take (place + radius)).drop (place - radius) := by
    rw [slice, if_neg hstop, hcut, ← List.take_eq_take_min]
  rw [← hslice, context, hstart]
  rfl

theorem length_context_le (source : Text) (place radius : Nat) :
    (context source place radius).length ≤ 2 * radius := by
  rw [context_eq, List.length_map, List.length_drop, List.length_take]
  omega

/-- The character at a place stands in the middle of its context, or less far behind its start if
the text does not start that far in front of the place. -/
theorem getElem?_context {source : Text} {place radius : Nat} (hradius : 0 < radius) {c : Char}
    (hc : source[place]? = some c) :
    (context source place radius)[min place radius]? = some (shown c) := by
  have hplace : place - radius + min place radius = place := by omega
  rw [context_eq, List.getElem?_map, List.getElem?_drop, hplace, List.getElem?_take,
    if_pos (by omega), hc]
  rfl

end Position

namespace Structured

open Text

/-- What is said of the message of a parser: the message without the name of the parser in front of
it, written in any case, and without the blanks behind that name. Something is always said. -/
inductive Said (message : Text) : Text → Prop where
  | named {name blanks rest : Text} (hmessage : message = name ++ (blanks ++ rest))
      (hname : ReadsAs "KaTeX parse error:" name) (hblanks : ∀ c ∈ blanks, isBlank c = true)
      (hrest : ∀ c ∈ rest.head?, isBlank c = false) :
    Said message (Template.orElse rest "KaTeX parse error")
  | unnamed (hname : ∀ name rest, message = name ++ rest → ¬ ReadsAs "KaTeX parse error:" name) :
    Said message (Template.orElse message "KaTeX parse error")

/-- The hint for a message is that of the first phrase of the table that occurs in it. -/
inductive Hinted (message : Text) : Option Text → Prop where
  | phrase {before after : List (Text × Text)} {phrase hint : Text}
      (htable : Template.formulaHints = before ++ (phrase, hint) :: after)
      (hoccurs : phrase <:+: message) (hbefore : ∀ e ∈ before, ¬ e.1 <:+: message) :
    Hinted message (some hint)
  | unknown (hnone : ∀ e ∈ Template.formulaHints, ¬ e.1 <:+: message) : Hinted message none

theorem said_withoutHeader (message : Text) :
    Said message (Template.orElse (withoutHeader message) "KaTeX parse error") := by
  have hcase : ("KaTeX parse error:" : Text).map fold = ("katex parse error:" : Text).map fold := by
    decide
  unfold withoutHeader
  split
  · rename_i rest hrest
    obtain ⟨name, hmessage, hname⟩ := afterFolded?_eq_some_iff.mp hrest
    have hblanks : rest = rest.takeWhile isBlank ++ trimStart rest := by
      rw [trimStart, List.takeWhile_append_dropWhile]
    refine .named (hmessage.trans (congrArg (name ++ ·) hblanks)) (hname.trans hcase.symm)
      (fun c => List.mem_takeWhile_imp) fun c hc => ?_
    have hhead : (rest.dropWhile isBlank).head? = some c := hc
    have hnot := List.head?_dropWhile_not isBlank rest
    rwa [hhead] at hnot
  · rename_i hnone
    refine .unnamed fun name rest hmessage hname => ?_
    rw [afterFolded?_eq_some_iff.mpr ⟨name, hmessage, hname.trans hcase⟩] at hnone
    cases hnone

theorem hinted_formulaHint? (message : Text) : Hinted message (Template.formulaHint? message) := by
  unfold Template.formulaHint?
  cases h : Template.formulaHints.find? fun e => e.1.occursIn message with
  | none =>
    refine .unknown fun e he => ?_
    rw [← occursIn_iff]
    exact List.find?_eq_none.mp h e he
  | some e =>
    obtain ⟨hoccurs, before, after, htable, hbefore⟩ := List.find?_eq_some_iff_append.mp h
    refine .phrase htable (occursIn_iff.mp hoccurs) fun e he hin => ?_
    have hnot := hbefore e he
    rw [occursIn_iff.mpr hin] at hnot
    cases hnot

/-- A diagnostic lies on the line of a place in the code, and shows what stands around it. -/
structure PointsAt (d : Diagnostic) (code : Text) (place : Nat) : Prop where
  line : ∃ l, d.line = some l ∧ l.number = 1 + newlines (code.take place) ∧ 1 ≤ l.number ∧
    l.number ≤ (lines code).length ∧ Position.lineOffsetAt? code place = .ok (l.number - 1)
  context : ∃ t, d.context = some t ∧ '\n' ∉ t ∧ t.length ≤ 30 ∧
    ∀ c, code[place]? = some c → t[min place 15]? = some (if c = '\n' then ' ' else c)

/-- A diagnostic as it should be for a failure of a piece of code. -/
structure Diagnosed (failure : Failure) (code : Text) (d : Diagnostic) : Prop where
  /-- No check of its parts refuses it. -/
  accepted : Diagnostic.make? d.code d.message (d.line.map fun l => (l.number : Int)) d.hint
    d.context = .ok d
  worded : failure.structured = true → d.code = .positionalStructuredFailure ∧
    Said failure.message d.message ∧ Hinted d.message d.hint
  placed : failure.structured = true → ∀ place : Nat, failure.position = some (place : Int) →
    PointsAt d code place
  unplaced : failure.structured = true → (∀ p ∈ failure.position, p < 0) →
    d.line = none ∧ d.context = none
  other : failure.structured = false → d.code = .unknownStructuredFailure ∧ d.line = none ∧
    d.message ≠ []

theorem position?_eq_some_iff {failure : Failure} {place : Nat} :
    position? failure = some place ↔ failure.position = some (place : Int) := by
  obtain ⟨message, position, structured⟩ := failure
  match position with
  | none => simp [position?]
  | some (.ofNat p) =>
    simp only [position?, Option.some.injEq, Int.ofNat_eq_natCast, Int.natCast_inj]
  | some (.negSucc p) => simp [position?]

theorem position?_of_neg {failure : Failure} (h : ∀ p ∈ failure.position, p < 0) :
    position? failure = none := by
  refine Option.eq_none_iff_forall_ne_some.mpr fun place hplace => ?_
  exact absurd (h _ (position?_eq_some_iff.mp hplace)) (Int.not_lt.mpr (Int.natCast_nonneg place))

theorem diagnose_own {failure : Failure} (h : failure.structured = true) (code : Text) :
    diagnose failure code = Template.positionalStructuredFailure
      ((position? failure).map fun p => Line.first.down (Position.lineOffset code p))
      (withoutHeader failure.message)
      ((position? failure).map fun p => Position.context code p contextRadius) := by
  rw [diagnose, if_pos h]
  cases position? failure with
  | none => rfl
  | some p => rfl

theorem pointsAt_diagnose {failure : Failure} (h : failure.structured = true) {place : Nat}
    (hplace : failure.position = some (place : Int)) (code : Text) :
    PointsAt (diagnose failure code) code place := by
  have hradius : 0 < contextRadius := by decide
  have hbelow := Position.newlines_take_lt code place
  rw [diagnose_own h, position?_eq_some_iff.mpr hplace]
  refine ⟨⟨_, rfl, rfl, ?_, ?_, ?_⟩, _, rfl, feed_not_mem_context _ _ _,
    Position.length_context_le _ _ _, fun c hc => Position.getElem?_context hradius hc⟩
  · exact Nat.le_add_right _ _
  · show 1 + newlines (code.take place) ≤ _
    omega
  · rw [Position.lineOffsetAt?_ofNat]
    exact congrArg Except.ok (Nat.add_sub_cancel_left _ _).symm

/-- A formula that fails is always diagnosed. A failure of the parser's own kind is worded after its
message, and lies at its place if it has one; any other has its own message and no line. -/
theorem formula_diagnosed (failure : Failure) (code : Text) :
    Diagnosed failure code (diagnose failure code) where
  accepted := (diagnose failure code).make?_self
  worded h := by
    rw [diagnose_own h]
    exact ⟨rfl, said_withoutHeader _, hinted_formulaHint? _⟩
  placed h _ hplace := pointsAt_diagnose h hplace code
  unplaced h hneg := by
    rw [diagnose_own h, position?_of_neg hneg]
    exact ⟨rfl, rfl⟩
  other h := by
    have hunknown : diagnose failure code = Template.unknownStructuredFailure failure.message
        (nonempty? (code.take Template.contextLimit)) := by
      rw [diagnose, h]
      rfl
    rw [hunknown]
    exact ⟨rfl, rfl, Diagnostic.message_ne_nil _⟩

end Structured

end FragmentLint
