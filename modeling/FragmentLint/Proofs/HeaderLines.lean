import FragmentLint.Proofs.PointedReports

/-!
# Headers that are taken off

A report may stand on one line, with what it says behind its header. Whether a text is a header is
judged in any case of its letters, but a header is taken off only where it is written as the parser
writes it. Written otherwise it stays in front of what is reported.
-/
namespace FragmentLint

namespace Text

/-- What reads as a name holds no character that folds onto none of the name's. -/
theorem ReadsAs.not_mem {name piece : Text} (h : ReadsAs name piece) {c : Char}
    (hc : fold c ∉ name.map fold) : c ∉ piece := by
  intro hmem
  rw [← h] at hc
  exact hc (List.mem_map_of_mem hmem)

theorem firstLine_eq_self {t : Text} (h : '\n' ∉ t) : firstLine t = t := by
  have hhead := head?_lines t
  rw [lines_eq_singleton h] at hhead
  exact (Option.some.inj hhead).symm

end Text

namespace Shape

open Text

/-- The words of a header, as the parser writes them. -/
def headerWords : Text := "Parse error on line "

/-- A line that starts with a header, written in some way. -/
structure HeadedLine where
  /-- The words of the header, in any case. -/
  head : Text
  /-- The digits of the number, of any script. -/
  digits : Text
  /-- What stands behind the header and a space. -/
  rest : Text
  reads : ReadsAs headerWords head
  digits_ne_nil : digits ≠ []
  all_digits : ∀ c ∈ digits, isDigit c = true
  single : '\n' ∉ rest
  plain : ¬ ("Expecting" : Text) <:+: rest

namespace HeadedLine

def text (l : HeadedLine) : Text :=
  l.head ++ (l.digits ++ ':' :: ' ' :: l.rest)

theorem isRun (l : HeadedLine) : IsRun l.digits (':' :: ' ' :: l.rest) where
  ne_nil := l.digits_ne_nil
  all_digits := l.all_digits
  ends c hc := by
    obtain rfl := Option.some.inj hc
    decide

theorem parseHeader (l : HeadedLine) : ParseHeader l.text l.digits := by
  have hwords : headerWords.map fold = ("parse error on line " : Text).map fold := by decide
  exact ⟨' ' :: l.rest, l.head, rfl, l.reads.trans hwords, l.isRun⟩

/-- A character that is neither a letter of the words nor a digit stands behind the colon only. -/
theorem not_mem_front (l : HeadedLine) {c : Char} (hwords : fold c ∉ headerWords.map fold)
    (hdigit : isDigit c = false) (hcolon : c ≠ ':') : c ∉ l.head ++ (l.digits ++ [':']) := by
  have hdigits : c ∉ l.digits := by
    intro h
    rw [l.all_digits c h] at hdigit
    cases hdigit
  simp [l.reads.not_mem hwords, hdigits, hcolon]

theorem text_eq (l : HeadedLine) :
    l.text = l.head ++ (l.digits ++ [':']) ++ ' ' :: l.rest := by
  simp [text]

theorem feed_not_mem_text (l : HeadedLine) : '\n' ∉ l.text := by
  have hfront := l.not_mem_front (c := '\n') (by decide) (by decide) (by decide)
  rw [text_eq, List.mem_append, List.mem_cons, not_or, not_or]
  exact ⟨hfront, by decide, l.single⟩

theorem gotToken?_text (l : HeadedLine) : gotToken? l.text = none := by
  have hfront := l.not_mem_front (c := 'x') (by decide) (by decide) (by decide)
  refine gotToken?_eq_none fun h => ?_
  rw [text_eq] at h
  obtain h | h := infix_append_cons (by decide) h
  · exact hfront (h.subset (by decide))
  · exact l.plain h

/-- A header as the parser writes it is taken off, with the blanks behind it. -/
theorem withoutHeader_of_own (l : HeadedLine) (h : l.head = headerWords) :
    withoutHeader l.text = trimStart l.rest := by
  have hafter : after? "Parse error on line " l.text = some (l.digits ++ ':' :: ' ' :: l.rest) :=
    after?_eq_some_iff.mpr (by rw [text, h]; rfl)
  have hrun : run? (l.digits ++ ':' :: ' ' :: l.rest) = some (l.digits, ':' :: ' ' :: l.rest) :=
    run?_eq_some_iff.mpr ⟨rfl, l.isRun⟩
  rw [withoutHeader, hafter, Option.bind_some, hrun]
  exact List.dropWhile_cons_of_pos (by decide)

/-- A header that is written otherwise stays. -/
theorem withoutHeader_of_other (l : HeadedLine) (h : l.head ≠ headerWords) :
    withoutHeader l.text = l.text := by
  have hafter : after? "Parse error on line " l.text = none := by
    refine after?_eq_none fun ⟨t, ht⟩ => h ?_
    exact (List.append_inj ht l.reads.length_eq.symm).1.symm
  rw [withoutHeader, hafter]
  rfl

/-- A line with its header is longer than what may be reported in its place. -/
theorem length_said_lt (l : HeadedLine) :
    (Template.orElse (trimStart l.rest) "Parse error").length < l.text.length := by
  have hwords : headerWords.length = 20 := by decide
  have hfallback : ("Parse error" : Text).length = 11 := by decide
  have hhead := l.reads.length_eq
  have hrest : (trimStart l.rest).length ≤ l.rest.length := (List.dropWhile_sublist _).length_le
  have htext : l.text.length = l.head.length + (l.digits.length + (l.rest.length + 2)) := by
    simp [text]
  unfold Template.orElse
  split <;> omega

end HeadedLine

end Shape

namespace FreeText

open Text

theorem parseErrorText_headedLine (l : Shape.HeadedLine) :
    parseErrorText l.text = (Shape.withoutHeader l.text, none) := by
  unfold parseErrorText
  rw [l.gotToken?_text, firstLine_eq_self l.feed_not_mem_text]

/-- A line with a header is diagnosed as what stands behind the header, trimmed in front, exactly if
the header is written as the parser writes it. Otherwise the whole line is the message. -/
theorem header_taken_off (l : Shape.HeadedLine) (hdigits : l.digits.length ≤ digitLimit)
    (code : Text) :
    ∃ d, diagnose l.text code = .ok d ∧ Located d .positionalParseFailure l.digits ∧
      d.message = (if l.head = Shape.headerWords then
        Template.orElse (trimStart l.rest) "Parse error" else l.text) ∧
      (d.message = Template.orElse (trimStart l.rest) "Parse error" ↔
        l.head = Shape.headerWords) := by
  have hshape := Shape.of?_of_parseHeader (Shape.first_of_start l.parseHeader)
  have hdiagnose := diagnose_of_parseError hshape hdigits code
  rw [parseErrorText_headedLine] at hdiagnose
  refine ⟨_, hdiagnose, located_parseError _ _ _ _, ?_⟩
  by_cases h : l.head = Shape.headerWords
  · rw [l.withoutHeader_of_own h, if_pos h]
    exact ⟨rfl, iff_of_true rfl h⟩
  · have hne : l.text ≠ [] := List.ne_nil_of_length_pos (Nat.zero_lt_of_lt l.length_said_lt)
    rw [l.withoutHeader_of_other h, if_neg h, Template.message_positionalParseFailure hne]
    refine ⟨rfl, iff_of_false (fun heq => ?_) h⟩
    exact absurd (congrArg List.length heq) (Nat.ne_of_gt l.length_said_lt)

/-- A header as the parser writes it, with digits of another script and odd blanks behind it. -/
def foreignDigits : Shape.HeadedLine where
  head := Shape.headerWords
  digits := "\u0664\u0662"
  rest := "\u00a0\tUnterminated string "
  reads := rfl
  digits_ne_nil := by decide
  all_digits := List.all_eq_true.mp (by decide +kernel)
  single := by decide
  plain := by decide +kernel

theorem header_taken_off_foreignDigits :
    foreignDigits.digits.length ≤ digitLimit ∧ ∃ d, diagnose foreignDigits.text "pie" = .ok d ∧
      d.code = .positionalParseFailure ∧ d.line.map (·.number) = some 42 ∧
      d.message = "Unterminated string " := by
  have hdigits : foreignDigits.digits.length ≤ digitLimit := by decide
  have hvalue : digitsValue foreignDigits.digits = 42 := by decide +kernel
  have hsaid : Template.orElse (trimStart foreignDigits.rest) "Parse error" =
      "Unterminated string " := by decide +kernel
  obtain ⟨d, hd, ⟨hcode, hline⟩, -, hmessage⟩ := header_taken_off foreignDigits hdigits "pie"
  rw [hvalue] at hline
  exact ⟨hdigits, d, hd, hcode, hline, (hmessage.mpr rfl).trans hsaid⟩

def smallHeader : Shape.HeadedLine where
  head := "parse error on line "
  digits := "4"
  rest := "Unterminated string"
  reads := by decide
  digits_ne_nil := by decide
  all_digits := List.all_eq_true.mp (by decide)
  single := by decide
  plain := by decide +kernel

/-- A header in small letters is reported with what stands behind it. -/
theorem smallHeader_reported :
    (diagnose smallHeader.text "pie").toOption.map (fun d => (d.code, d.message)) =
      some (.positionalParseFailure, "parse error on line 4: Unterminated string".toList) ∧
    Template.orElse (trimStart smallHeader.rest) "Parse error" = "Unterminated string" := by
  decide +kernel

end FreeText

end FragmentLint
