import Mathlib.Data.List.Infix
import FragmentLint.Proofs.FirstPlaces

/-!
# Failures that echo the source

The detector of types fails in fixed words and echoes the whole source behind them. Headers that
name a line are looked for before these words are, and anywhere in the message. None begins within
the words, so it is the source alone that decides: where it holds a header, this is taken for the
failure, and otherwise the type of the diagram is unknown.
-/
namespace FragmentLint

namespace Text

/-- Two texts differ, case aside, before either of them ends. -/
def Parts (t u : Text) : Prop :=
  ¬ t.map fold <+: u.map fold ∧ ¬ u.map fold <+: t.map fold

instance (t u : Text) : Decidable (Parts t u) :=
  inferInstanceAs (Decidable (_ ∧ _))

/-- Where words and a text differ, the words are not read, whatever follows the text. -/
theorem afterFolded?_of_parts {words t : Text} (h : Parts words t) (u : Text) :
    afterFolded? words (t ++ u) = none := by
  refine Option.eq_none_iff_forall_ne_some.mpr fun rest hrest => ?_
  have hwords := map_fold_of_afterFolded? hrest
  rw [List.map_append] at hwords
  obtain hstart | hend :=
    List.prefix_or_prefix_of_prefix hwords (List.prefix_append (t.map fold) (u.map fold))
  · exact h.1 hstart
  · exact h.2 hend

end Text

namespace Shape

open Text

/-- The words in which the detector of types fails. -/
def undetected : Text := "No diagram type detected matching given configuration for text: "

/-- The words of neither header begin in them. -/
theorem parts_undetected {s : Text} (hs : s <:+ undetected) (hne : s ≠ []) :
    Parts "parse error on line " s ∧ Parts "lexical error on line " s := by
  have hall : ∀ s ∈ undetected.tails, s ≠ [] →
      Parts "parse error on line " s ∧ Parts "lexical error on line " s := by
    decide +kernel
  exact hall s ((List.mem_tails s undetected).mpr hs) hne

theorem search_parseError_undetected (source : Text) :
    search parseErrorAt? (undetected ++ source) = search parseErrorAt? source := by
  refine search_append_of_unread fun s hs hne => ?_
  rw [parseErrorAt?, afterFolded?_of_parts (parts_undetected hs hne).1]
  rfl

theorem search_lexicalError_undetected (source : Text) :
    search lexicalErrorAt? (undetected ++ source) = search lexicalErrorAt? source := by
  refine search_append_of_unread fun s hs hne => ?_
  rw [lexicalErrorAt?, afterFolded?_of_parts (parts_undetected hs hne).2]
  rfl

theorem of?_parseHeader_undetected {source digits : Text} (h : First ParseHeader source digits) :
    of? (undetected ++ source) = some (.parseError digits) :=
  of?_of_parseHeader (builds_parseError.first_of_search_eq (fun _ _ => parseError.inj)
    (search_parseError_undetected source) h)

theorem of?_lexicalHeader_undetected {source digits : Text} (hparse : Nowhere ParseHeader source)
    (h : First LexicalHeader source digits) :
    of? (undetected ++ source) = some (.lexicalError digits) :=
  of?_of_lexicalHeader
    (builds_parseError.nowhere_of_search_eq (search_parseError_undetected source) hparse)
    (builds_lexicalError.first_of_search_eq (fun _ _ => lexicalError.inj)
      (search_lexicalError_undetected source) h)

theorem of?_undetected {source : Text} (hparse : Nowhere ParseHeader source)
    (hlexical : Nowhere LexicalHeader source) :
    of? (undetected ++ source) = some .noDiagramType := by
  have hwords : undetected = ("No diagram type detected" : Text) ++
      " matching given configuration for text: " := by decide
  have hafter : noDiagramTypeAt? (undetected ++ source) = some .noDiagramType := by
    rw [hwords, List.append_assoc, noDiagramTypeAt?, after?_eq_some_iff.mpr rfl]
    rfl
  have hnone : search parseErrorAt? (undetected ++ source) = none := by
    rw [search_parseError_undetected]
    exact builds_parseError.search_eq_none_iff.mpr hparse
  have hnone' : search lexicalErrorAt? (undetected ++ source) = none := by
    rw [search_lexicalError_undetected]
    exact builds_lexicalError.search_eq_none_iff.mpr hlexical
  exact of?_eq_some_iff.mpr ⟨⟨"no-diagram-type", noDiagramTypeAt?⟩,
    [⟨"parse-error", parseErrorAt?⟩, ⟨"lexical-error", lexicalErrorAt?⟩], _, rfl,
    by simp [Rule.find?, hnone, hnone'], search_of_start hafter⟩

end Shape

namespace FreeText

open Text Shape

/-- The diagnostic for a diagram of an unknown type shows the first line of its source. -/
structure Untyped (d : Diagnostic) (source : Text) : Prop where
  code : d.code = .unknownEntryPoint
  line : d.line = some Line.first
  message : d.message = "Unknown diagram type: \"" ++
    Template.orElse (trim (firstLine source)) "(empty)" ++ "\""

/-- What becomes of a failure to detect the type of a diagram, by the headers that its source
holds. -/
inductive Classified (source : Text) : Except ValueFault Diagnostic → Prop where
  | untyped {d : Diagnostic} (hparse : Nowhere ParseHeader source)
      (hlexical : Nowhere LexicalHeader source) (hd : Untyped d source) : Classified source (.ok d)
  | parseError {d : Diagnostic} {digits : Text} (hfirst : First ParseHeader source digits)
      (hlength : digits.length ≤ digitLimit) (hd : Located d .positionalParseFailure digits) :
    Classified source (.ok d)
  | lexicalError {d : Diagnostic} {digits : Text} (hparse : Nowhere ParseHeader source)
      (hfirst : First LexicalHeader source digits) (hlength : digits.length ≤ digitLimit)
      (hd : Located d .lexicalFailure digits) : Classified source (.ok d)
  /-- The first header that counts names its line by too many digits. -/
  | overlong {digits : Text} (hfirst : First ParseHeader source digits ∨
        Nowhere ParseHeader source ∧ First LexicalHeader source digits)
      (hlength : digitLimit < digits.length) :
    Classified source (.error (.tooManyDigits digits.length))

theorem untyped_of_shape {message : Text} (h : Shape.of? message = some .noDiagramType)
    (source : Text) : ∃ d, diagnose message source = .ok d ∧ Untyped d source := by
  refine ⟨Template.unknownDiagramType (Position.firstLine source), ?_, ⟨rfl, rfl, rfl⟩⟩
  rw [diagnose, h]
  rfl

theorem classified_of_parseHeader {source digits : Text} (h : First ParseHeader source digits) :
    Classified source (diagnose (undetected ++ source) source) := by
  have hshape := of?_parseHeader_undetected h
  obtain hlength | hlength := Nat.lt_or_ge digitLimit digits.length
  · rw [diagnose_eq_error_iff.mpr ⟨digits, overlong_iff.mpr ⟨_, hshape, rfl, hlength⟩, rfl⟩]
    exact .overlong (.inl h) hlength
  · rw [diagnose_of_parseError hshape hlength]
    exact .parseError h hlength (located_parseError _ _ _ _)

theorem classified_of_lexicalHeader {source digits : Text} (hparse : Nowhere ParseHeader source)
    (h : First LexicalHeader source digits) :
    Classified source (diagnose (undetected ++ source) source) := by
  have hshape := of?_lexicalHeader_undetected hparse h
  obtain hlength | hlength := Nat.lt_or_ge digitLimit digits.length
  · rw [diagnose_eq_error_iff.mpr ⟨digits, overlong_iff.mpr ⟨_, hshape, rfl, hlength⟩, rfl⟩]
    exact .overlong (.inr ⟨hparse, h⟩) hlength
  · rw [diagnose_of_lexicalError hshape hlength]
    exact .lexicalError hparse h hlength (located_lexicalError _)

theorem classified_undetected (source : Text) :
    Classified source (diagnose (undetected ++ source) source) := by
  obtain hparse | ⟨digits, hfirst⟩ := builds_parseError.nowhere_or_first source
  · obtain hlexical | ⟨digits, hfirst⟩ := builds_lexicalError.nowhere_or_first source
    · obtain ⟨d, hdiagnose, hd⟩ := untyped_of_shape (of?_undetected hparse hlexical) source
      rw [hdiagnose]
      exact .untyped hparse hlexical hd
    · exact classified_of_lexicalHeader hparse hfirst
  · exact classified_of_parseHeader hfirst

theorem Located.not_untyped {d : Diagnostic} {code : Code} {digits : Text}
    (hd : Located d code digits) (hne : code ≠ .unknownEntryPoint) :
    ¬ ∃ e, (Except.ok d : Except ValueFault Diagnostic) = .ok e ∧ e.code = .unknownEntryPoint := by
  rintro ⟨e, hok, hcode⟩
  obtain rfl := Except.ok.inj hok
  exact hne (hd.code.symm.trans hcode)

/-- The type is said to be unknown exactly where the source holds no header. -/
theorem Classified.untyped_iff {source : Text} {outcome : Except ValueFault Diagnostic}
    (h : Classified source outcome) :
    (∃ d, outcome = .ok d ∧ d.code = .unknownEntryPoint) ↔
      Nowhere ParseHeader source ∧ Nowhere LexicalHeader source := by
  cases h with
  | untyped hparse hlexical hd => exact iff_of_true ⟨_, rfl, hd.code⟩ ⟨hparse, hlexical⟩
  | parseError hfirst _ hd =>
    exact iff_of_false (hd.not_untyped (by decide)) fun hnone => hfirst.not_nowhere hnone.1
  | lexicalError _ hfirst _ hd =>
    exact iff_of_false (hd.not_untyped (by decide)) fun hnone => hfirst.not_nowhere hnone.2
  | overlong hfirst _ =>
    refine iff_of_false (fun ⟨d, hok, _⟩ => absurd hok nofun) fun hnone => ?_
    obtain hfirst | ⟨-, hfirst⟩ := hfirst
    · exact hfirst.not_nowhere hnone.1
    · exact hfirst.not_nowhere hnone.2

/-- A failure to detect the type of a diagram is classified by the headers that its source holds. It
is said to be one exactly if there are none. -/
theorem detection_classified (source : Text) :
    Classified source (diagnose (undetected ++ source) source) ∧
      ((∃ d, diagnose (undetected ++ source) source = .ok d ∧ d.code = .unknownEntryPoint) ↔
        Nowhere ParseHeader source ∧ Nowhere LexicalHeader source) :=
  ⟨classified_undetected source, (classified_undetected source).untyped_iff⟩

end FreeText

end FragmentLint
