import FragmentLint.Proofs.Defects
import FragmentLint.Proofs.DiagramFailures

/-!
# Which diagnostics run over several lines

What a diagnostic says is worded on one line, but for what it quotes. A failing diagram may be
reported with the token at which its parser gave up or with the kind of token that it expected, and
both stand in the message as they are. A failing formula is reported with the message of its parser,
and if this is not of the parser's own kind, with the start of the code. Everything else that is
quoted is taken from one line, or put on one.
-/
namespace FragmentLint

/-- That a text which is written out stands on one line is seen by looking at its characters. Taken
out of the encoded string they are costly to look at. -/
theorem Text.feed_not_mem_literal {cs : List Char} (h : cs.all (· != '\n') = true) :
    '\n' ∉ (String.ofList cs : Text) := by
  rw [String.toList_ofList]
  intro hfeed
  exact absurd (List.all_eq_true.mp h _ hfeed) (by decide)

namespace Template

theorem mem_orElse_iff {c : Char} {t fallback : Text} (h : c ∉ fallback) :
    c ∈ orElse t fallback ↔ c ∈ t := by
  unfold orElse
  split
  · rename_i hnil
    simp [hnil, h]
  · rfl

/-- What stands between fixed words decides whether the whole holds a character that they do not. -/
theorem mem_between_iff {c : Char} {front back : Text} (hfront : c ∉ front) (hback : c ∉ back)
    (t : Text) : c ∈ front ++ t ++ back ↔ c ∈ t := by
  rw [List.mem_append, List.mem_append]
  constructor
  · rintro ((h | h) | h)
    · exact absurd h hfront
    · exact h
    · exact absurd h hback
  · exact fun h => .inl (.inr h)

theorem feed_not_mem_validTypes : '\n' ∉ "Valid types: " ++ Text.join ", " diagramTypes := by
  decide +kernel

theorem feed_not_mem_formulaHints : ∀ e ∈ formulaHints, '\n' ∉ e.2 := by
  simp only [formulaHints, List.forall_mem_cons]
  refine ⟨?_, ?_, ?_, ?_, fun e he => absurd he List.not_mem_nil⟩
  all_goals exact Text.feed_not_mem_literal rfl

theorem feed_not_mem_formulaHint? (message : Text) : '\n' ∉ (formulaHint? message).getD [] := by
  cases h : formulaHint? message with
  | none => exact List.not_mem_nil
  | some hint =>
    obtain ⟨entry, hfound, rfl⟩ := Option.map_eq_some_iff.mp h
    exact feed_not_mem_formulaHints entry (List.mem_of_find?_eq_some hfound)

end Template

namespace TokenHint

theorem feed_not_mem_table :
    ∀ e ∈ table, '\n' ∉ e.1 ∧ '\n' ∉ e.2.message ∧ '\n' ∉ e.2.hint := by
  simp only [table, List.forall_mem_cons, List.not_mem_nil, false_imp_iff, implies_true, and_true]
  repeat' constructor
  all_goals exact Text.feed_not_mem_literal rfl

/-- No name in the table holds a line feed, and neither does what the table says. -/
theorem feed_not_mem_of_find? {token : Text} {h : TokenHint} (found : find? token = some h) :
    '\n' ∉ token ∧ '\n' ∉ h.message ∧ '\n' ∉ h.hint := by
  obtain ⟨entry, hentry, rfl⟩ := Option.map_eq_some_iff.mp found
  have hname : entry.1 = token := by simpa using List.find?_some hentry
  exact hname ▸ feed_not_mem_table entry (List.mem_of_find?_eq_some hentry)

end TokenHint

namespace Shape

open Text

theorem withoutHeader_subset (line : Text) : withoutHeader line ⊆ line := by
  unfold withoutHeader
  split
  · rename_i digits rest h
    obtain ⟨t, hafter, hrun⟩ := Option.bind_eq_some_iff.mp h
    have hrest : t.dropWhile isDigit = ':' :: rest := by
      unfold run? at hrun
      split at hrun
      · cases hrun
      · exact (Prod.mk.inj (Option.some.inj hrun)).2
    rw [after?_eq_some_iff.mp hafter]
    intro c hc
    have hinside : c ∈ t.dropWhile isDigit := by
      rw [hrest]
      exact List.mem_cons_of_mem _ ((List.dropWhile_sublist _).subset hc)
    exact List.mem_append_right _ ((List.dropWhile_sublist _).subset hinside)
  · exact List.Subset.refl _

theorem character_ne_feed {message digits : Text} {c : Char}
    (h : of? message = some (.unexpectedCharacter c digits)) : c ≠ '\n' := by
  obtain ⟨r, hfirst⟩ := of?_eq_some_iff.mp h
  obtain ⟨t, ht⟩ := read_of_search hfirst.find?
  have hr := hfirst.mem_rules
  simp only [rules, List.mem_cons, List.not_mem_nil, or_false] at hr
  obtain rfl | rfl | rfl | rfl | rfl | rfl := hr
  · simp only [parseErrorAt?, Option.bind_eq_bind, Option.bind_eq_some_iff, Option.some.injEq] at ht
    obtain ⟨-, -, ⟨-, -⟩, -, -, -, ⟨⟩⟩ := ht
  · simp only [lexicalErrorAt?, Option.bind_eq_bind, Option.bind_eq_some_iff, Option.some.injEq]
      at ht
    obtain ⟨-, -, ⟨-, -⟩, -, ⟨⟩⟩ := ht
  · obtain ⟨-, -, ⟨⟩⟩ := Option.map_eq_some_iff.mp ht
  · obtain ⟨d, digits', heq, hne⟩ := eq_of_unexpectedCharacterAt? ht
    obtain ⟨rfl, -⟩ := unexpectedCharacter.inj heq
    exact hne
  · simp only [expectedTokenAt?, Option.bind_eq_bind, Option.bind_eq_some_iff, Option.some.injEq]
      at ht
    obtain ⟨-, -, -, -, ⟨⟩⟩ := ht
  · obtain ⟨-, -, ⟨⟩⟩ := Option.map_eq_some_iff.mp ht

end Shape

/-- A diagnostic runs over several lines in its message, if in anything: on a condition, it does. -/
structure Diagnostic.Quotes (d : Diagnostic) (spills : Prop) : Prop where
  message : '\n' ∈ d.message ↔ spills
  hint : '\n' ∉ d.hint.getD []

namespace FreeText

open Text

/-- The message of a failing diagram has a token or a kind of token of several lines in it. -/
inductive Spills (message : Text) : Prop where
  | token {digits token : Text} (hshape : Shape.of? message = some (.parseError digits))
      (hdigits : digits.length ≤ digitLimit) (hgot : Shape.gotToken? message = some token)
      (hfeed : '\n' ∈ token)
  | kind {kind : Text} (hshape : Shape.of? message = some (.expectedToken kind))
      (hfeed : '\n' ∈ kind)

/-- Of a parse error the token is quoted, unless it is in the table, and else the first line. -/
theorem feed_mem_parseErrorText (message : Text) :
    ('\n' ∈ (parseErrorText message).1 ↔
        ∃ token, Shape.gotToken? message = some token ∧ '\n' ∈ token) ∧
      '\n' ∉ (parseErrorText message).2.getD [] := by
  unfold parseErrorText
  cases hgot : Shape.gotToken? message with
  | none =>
    have hline : '\n' ∉ Shape.withoutHeader (firstLine message) := fun hfeed =>
      not_mem_firstLine message (Shape.withoutHeader_subset _ hfeed)
    simp [hline]
  | some token =>
    simp only [Option.some.injEq, exists_eq_left']
    cases hfound : TokenHint.find? token with
    | some hint =>
      obtain ⟨hname, hmessage, hhint⟩ := TokenHint.feed_not_mem_of_find? hfound
      exact ⟨iff_of_false hmessage hname, hhint⟩
    | none =>
      exact ⟨Template.mem_between_iff (feed_not_mem_literal rfl) (feed_not_mem_literal rfl) token,
        feed_not_mem_literal rfl⟩

theorem not_spills_of_shape {shape : Shape} {message : Text}
    (hshape : Shape.of? message = some shape) (hparse : ∀ digits, shape ≠ .parseError digits)
    (hkind : ∀ kind, shape ≠ .expectedToken kind) : ¬ Spills message := by
  rintro (⟨hfound, -, -, -⟩ | ⟨hfound, -⟩)
  · exact hparse _ (Option.some.inj (hshape.symm.trans hfound))
  · exact hkind _ (Option.some.inj (hshape.symm.trans hfound))

theorem quotes_parseError {message digits : Text}
    (hshape : Shape.of? message = some (.parseError digits))
    (hdigits : digits.length ≤ digitLimit) (line context) :
    (Template.positionalParseFailure line (parseErrorText message).1 (parseErrorText message).2
      context).Quotes (Spills message) := by
  obtain ⟨hmessage, hhint⟩ := feed_mem_parseErrorText message
  refine ⟨?_, hhint⟩
  show '\n' ∈ Template.orElse (parseErrorText message).1 "Parse error" ↔ _
  rw [Template.mem_orElse_iff (feed_not_mem_literal rfl), hmessage]
  constructor
  · rintro ⟨token, hgot, hfeed⟩
    exact .token hshape hdigits hgot hfeed
  · rintro (⟨-, -, hgot, hfeed⟩ | ⟨hfound, -⟩)
    · exact ⟨_, hgot, hfeed⟩
    · cases hshape.symm.trans hfound

theorem quotes_expectedToken {message kind : Text}
    (hshape : Shape.of? message = some (.expectedToken kind)) :
    (Template.expectedToken kind).Quotes (Spills message) := by
  refine ⟨?_, feed_not_mem_literal rfl⟩
  have hmark : '\n' ∉ ("Expected " : Text) := feed_not_mem_literal rfl
  show '\n' ∈ ("Expected " : Text) ++ kind ↔ _
  rw [List.mem_append, or_iff_right hmark]
  constructor
  · exact .kind hshape
  · rintro (⟨hfound, -⟩ | ⟨hfound, hfeed⟩)
    · cases hshape.symm.trans hfound
    · obtain rfl := Shape.expectedToken.inj (Option.some.inj (hshape.symm.trans hfound))
      exact hfeed

theorem quotes_ofShape {shape : Shape} {message code : Text} {d : Diagnostic}
    (hshape : Shape.of? message = some shape) (h : ofShape shape message code = .ok d) :
    d.Quotes (Spills message) := by
  have hworded : ¬ Spills message → '\n' ∉ d.message → '\n' ∉ d.hint.getD [] →
      d.Quotes (Spills message) := fun hspills hmessage hhint =>
    ⟨iff_of_false hmessage hspills, hhint⟩
  cases shape with
  | parseError digits =>
    obtain ⟨hlength, n, rfl⟩ := built_of_number (fun n => Template.positionalParseFailure (line? n)
      (parseErrorText message).1 (parseErrorText message).2 (Shape.excerpt? (lines message))) h
    exact quotes_parseError hshape hlength _ _
  | lexicalError digits =>
    obtain ⟨-, n, rfl⟩ := built_of_number (fun n => Template.lexicalFailure (line? n)) h
    exact hworded (not_spills_of_shape hshape nofun nofun) (feed_not_mem_literal rfl)
      (feed_not_mem_literal rfl)
  | noDiagramType =>
    obtain rfl := Except.ok.inj h
    refine hworded (not_spills_of_shape hshape nofun nofun) ?_ Template.feed_not_mem_validTypes
    show '\n' ∉ _ ++ Template.orElse (Position.firstLine code) "(empty)" ++ _
    rw [Template.mem_between_iff (feed_not_mem_literal rfl) (feed_not_mem_literal rfl),
      Template.mem_orElse_iff (feed_not_mem_literal rfl)]
    exact fun hfeed => not_mem_firstLine code (trim_subset _ hfeed)
  | unexpectedCharacter c digits =>
    obtain ⟨-, n, rfl⟩ := built_of_number (fun n => Template.unexpectedCharacter
      (Line.first.down (Position.linesBefore (lines code) (indexOfUnits code n))) [c]) h
    refine hworded (not_spills_of_shape hshape nofun nofun) ?_ (feed_not_mem_literal rfl)
    show '\n' ∉ _ ++ [c] ++ _
    rw [Template.mem_between_iff (feed_not_mem_literal rfl) (feed_not_mem_literal rfl),
      List.mem_singleton]
    exact Ne.symm (Shape.character_ne_feed hshape)
  | expectedToken kind =>
    obtain rfl := Except.ok.inj h
    exact quotes_expectedToken hshape
  | alternatives =>
    obtain rfl := Except.ok.inj h
    exact hworded (not_spills_of_shape hshape nofun nofun) (feed_not_mem_literal rfl)
      (feed_not_mem_literal rfl)

theorem not_spills_of_unrecognized {message : Text} (h : Shape.of? message = none) :
    ¬ Spills message := by
  rintro (⟨hfound, -, -, -⟩ | ⟨hfound, -⟩)
  · cases h.symm.trans hfound
  · cases h.symm.trans hfound

/-- A message whose number cannot be read has no diagnostic of its own to run over lines. -/
theorem not_spills_of_error {message code : Text} {fault : ValueFault}
    (h : diagnose message code = .error fault) : ¬ Spills message := by
  obtain ⟨digits, hoverlong, -⟩ := diagnose_eq_error_iff.mp h
  obtain ⟨shape, hshape, hdigits, hlong⟩ := Shape.overlong_iff.mp hoverlong
  rintro (⟨hfound, hshort, -, -⟩ | ⟨hfound, -⟩)
  · obtain rfl := Option.some.inj (hshape.symm.trans hfound)
    obtain rfl := Option.some.inj hdigits
    omega
  · obtain rfl := Option.some.inj (hshape.symm.trans hfound)
    cases hdigits

theorem quotes_unknown {message : Text} (h : ¬ Spills message) :
    (Template.unknownFailureFormat message).Quotes (Spills message) := by
  refine ⟨iff_of_false ?_ h, feed_not_mem_literal rfl⟩
  show '\n' ∉ Template.orElse ((firstLine message).take Template.messageLimit) "Unknown parse error"
  rw [Template.mem_orElse_iff (feed_not_mem_literal rfl)]
  exact fun hfeed => not_mem_firstLine message (List.mem_of_mem_take hfeed)

theorem quotes_diagnose {message code : Text} {d : Diagnostic}
    (h : diagnose message code = .ok d) : d.Quotes (Spills message) := by
  unfold diagnose at h
  cases hshape : Shape.of? message with
  | some shape =>
    rw [hshape] at h
    exact quotes_ofShape hshape h
  | none =>
    rw [hshape] at h
    obtain rfl := Except.ok.inj h
    exact quotes_unknown (not_spills_of_unrecognized hshape)

theorem feed_not_mem_fallbackContext (code : Text) : '\n' ∉ (fallbackContext code).getD [] := by
  unfold fallbackContext nonempty?
  split
  · exact List.not_mem_nil
  · exact fun hfeed => not_mem_firstLine code (List.mem_of_mem_take hfeed)

end FreeText

namespace Structured

open Text

/-- The message of a failing formula runs over several lines, behind the name of the parser if the
failure is of the parser's own kind. -/
inductive Spills (failure : Failure) : Prop where
  | own (hown : failure.structured = true) (hfeed : '\n' ∈ withoutHeader failure.message)
  | other (hother : failure.structured = false) (hfeed : '\n' ∈ failure.message)

theorem quotes_diagnose (failure : Failure) (code : Text) :
    (diagnose failure code).Quotes (Spills failure) := by
  unfold diagnose
  cases hstructured : failure.structured with
  | true =>
    have hspills : Spills failure ↔ '\n' ∈ withoutHeader failure.message := by
      constructor
      · rintro (⟨-, hfeed⟩ | ⟨hother, -⟩)
        · exact hfeed
        · cases hstructured.symm.trans hother
      · exact .own hstructured
    have hquotes : ∀ line context, (Template.positionalStructuredFailure line
        (withoutHeader failure.message) context).Quotes (Spills failure) := fun line context =>
      ⟨(Template.mem_orElse_iff (feed_not_mem_literal rfl)).trans hspills.symm,
        Template.feed_not_mem_formulaHint? _⟩
    rw [if_pos rfl]
    dsimp only
    cases position? failure with
    | none => exact hquotes _ _
    | some p => exact hquotes _ _
  | false =>
    rw [if_neg (by decide)]
    refine ⟨(Template.mem_orElse_iff (feed_not_mem_literal rfl)).trans ⟨.other hstructured, ?_⟩,
      List.not_mem_nil⟩
    rintro (⟨hown, -⟩ | ⟨-, hfeed⟩)
    · cases hstructured.symm.trans hown
    · exact hfeed

theorem feed_not_mem_context (source : Text) (offset radius : Int) :
    '\n' ∉ Position.context source offset radius := by
  intro hfeed
  obtain ⟨c, -, hc⟩ := List.mem_map.mp hfeed
  split at hc
  · cases hc
  · rename_i hne
    exact hne hc

end Structured

namespace Family

/-- The message for a failure runs over several lines. -/
def Spills : Family → Failure → Prop
  | .mermaid, failure => FreeText.Spills failure.message
  | .math, failure => Structured.Spills failure

/-- The start of the code is shown for a failure, as it is. -/
def Excerpts : Family → Failure → Prop
  | .mermaid, _ => False
  | .math, failure => failure.structured = false

theorem quotes_diagnosis (family : Family) (failure : Failure) (code : Text) :
    (family.pipeline.diagnosis failure code).1.Quotes (family.Spills failure) := by
  cases family with
  | math => exact Structured.quotes_diagnose failure code
  | mermaid =>
    unfold Pipeline.diagnosis
    dsimp only [pipeline]
    cases hdiagnose : FreeText.diagnose failure.message code with
    | ok d => exact FreeText.quotes_diagnose hdiagnose
    | error fault => exact FreeText.quotes_unknown (FreeText.not_spills_of_error hdiagnose)

def context (family : Family) (failure : Failure) (code : Text) : Option Text :=
  Diagnostic.orContext (family.pipeline.diagnosis failure code).1.context
    (family.pipeline.fallback code)

theorem orContext_nonempty? (t : Text) (fallback : Option Text) :
    Diagnostic.orContext (Text.nonempty? t) fallback = (Text.nonempty? t).or fallback := by
  cases t <;> rfl

theorem feed_not_mem_orContext {context fallback : Option Text} (hcontext : '\n' ∉ context.getD [])
    (hfallback : '\n' ∉ fallback.getD []) :
    '\n' ∉ (Diagnostic.orContext context fallback).getD [] := by
  obtain ⟨t, rfl, -, hshown⟩ | hshown := FreeText.orContext_cases context fallback
  · rw [hshown]
    exact hcontext
  · rw [hshown]
    exact hfallback

theorem context_of_excerpts {family : Family} {failure : Failure} (h : family.Excerpts failure)
    (code : Text) :
    family.context failure code = Text.nonempty? (code.take Template.contextLimit) := by
  cases family with
  | mermaid => exact h.elim
  | math =>
    have hcontext : (Structured.diagnose failure code).context =
        Text.nonempty? (code.take Template.contextLimit) := by
      rw [Structured.diagnose, if_neg (by simpa [Excerpts] using h)]
      rfl
    show Diagnostic.orContext (Structured.diagnose failure code).context none = _
    rw [hcontext, orContext_nonempty?, Option.or_none]

/-- Any other context stands on one line. -/
theorem feed_not_mem_context {family : Family} {failure : Failure} (h : ¬ family.Excerpts failure)
    (code : Text) : '\n' ∉ (family.context failure code).getD [] := by
  cases family with
  | mermaid =>
    refine feed_not_mem_orContext ?_ (FreeText.feed_not_mem_fallbackContext code)
    have hone : ∀ d : Diagnostic, FreeText.WellFormed d → '\n' ∉ d.context.getD [] := by
      intro d hd
      cases hcontext : d.context with
      | none => exact List.not_mem_nil
      | some t => exact hd.context t hcontext
    unfold Pipeline.diagnosis
    dsimp only [pipeline]
    cases hdiagnose : FreeText.diagnose failure.message code with
    | ok d => exact hone d (FreeText.wellFormed_of_diagnose hdiagnose)
    | error fault => exact hone _ (FreeText.wellFormed_unknown _)
  | math =>
    have hown : failure.structured = true := by simpa [Excerpts] using h
    refine feed_not_mem_orContext ?_ List.not_mem_nil
    show '\n' ∉ (Structured.diagnose failure code).context.getD []
    rw [Structured.diagnose, if_pos hown]
    dsimp only
    cases Structured.position? failure with
    | none => exact List.not_mem_nil
    | some p => exact Structured.feed_not_mem_context _ _ _

end Family

end FragmentLint
