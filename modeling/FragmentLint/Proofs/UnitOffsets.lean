import FragmentLint.Failure.FreeText
import FragmentLint.Failure.Structured
import FragmentLint.Proofs.Breakdowns
import Mathlib.Algebra.Group.Nat.Defs

/-!
# Offsets in code units

Both parsers point into a text by an offset in code units, one in a member of its answer and the
other in the midst of its prose. The two offsets go different ways: the line of the first is found
by counting line feeds, that of the second by walking along the lines. Where they are the same
offset, of a character or of the end of the text, they come to the same line.
-/
namespace FragmentLint

namespace Text

theorem unitsOf_pos (c : Char) : 0 < unitsOf c := by
  unfold unitsOf
  split <;> omega

/-- The offset of a character in code units leads back to that character. -/
theorem indexOfUnits_units_take {t : Text} {i : Nat} (h : i ≤ t.length) :
    indexOfUnits t (units (t.take i)) = i := by
  induction t generalizing i with
  | nil =>
    obtain rfl := Nat.le_zero.mp h
    rfl
  | cons c t ih =>
    cases i with
    | zero => rfl
    | succ i =>
      have hpos := unitsOf_pos c
      have hrest := ih (Nat.le_of_succ_le_succ h)
      rw [List.take_succ_cons, units_cons, indexOfUnits, Nat.add_sub_cancel_left, hrest]
      omega

theorem length_ofNat_le_iff {n limit : Nat} (h : 0 < limit) :
    (ofNat n).length ≤ limit ↔ n < 10 ^ limit :=
  Nat.length_toDigits_le_iff (by decide) h

/-- A number is read back from its digits, unless there are too many of them. -/
theorem readDigits_ofNat {n : Nat} (h : n < 10 ^ digitLimit) : readDigits (ofNat n) = .ok n := by
  rw [readDigits, if_pos ((length_ofNat_le_iff (by decide)).mpr h), digitsValue_ofNat]

end Text

namespace Position

open Text

/-- A walk over a text that begins with a line feed passes over a line first. -/
theorem linesBefore_feed (t : Text) (offset : Nat) :
    linesBefore (lines ('\n' :: t)) (offset + 1 : Nat) = linesBefore (lines t) offset + 1 := by
  simp [lines, linesBefore]

theorem linesBefore_cons {c : Char} (hc : c ≠ '\n') (t : Text) (offset : Nat) :
    linesBefore (lines (c :: t)) (offset + 1 : Nat) = linesBefore (lines t) offset := by
  obtain ⟨l, ls, hlines⟩ := List.exists_cons_of_ne_nil (lines_ne_nil t)
  have hbehind : (offset : Int) + 1 - (l.length + 1 + 1) = offset - (l.length + 1) := by
    omega
  simp [lines, hc, hlines, linesBefore, hbehind]

/-- The walk along the lines of a text passes over one line for each line feed in front of an
offset, and no further. -/
theorem linesBefore_lines {t : Text} {offset : Nat} (h : offset ≤ t.length) :
    linesBefore (lines t) offset = lineOffset t offset := by
  induction t generalizing offset with
  | nil =>
    obtain rfl := Nat.le_zero.mp h
    rfl
  | cons c t ih =>
    cases offset with
    | zero =>
      obtain ⟨l, ls, hlines⟩ := List.exists_cons_of_ne_nil (lines_ne_nil (c :: t))
      simp [hlines, linesBefore, lineOffset, newlines]
    | succ offset =>
      have hrest := ih (Nat.le_of_succ_le_succ h)
      by_cases hc : c = '\n'
      · subst hc
        rw [linesBefore_feed, hrest]
        simp [lineOffset, newlines]
      · rw [linesBefore_cons hc, hrest]
        simp [lineOffset, newlines, hc]

end Position

namespace Text

theorem fold_of_isDigit {c : Char} (h : c.isDigit = true) : fold c = c := by
  have hbounds : 48 ≤ c.toNat ∧ c.toNat ≤ 57 := by
    simpa [Char.isDigit, UInt32.le_iff_toNat_le] using h
  have hsmall : ¬ (c.val ≥ 'A'.val ∧ c.val ≤ 'Z'.val) := by
    rintro ⟨hcapital, -⟩
    have : 65 ≤ c.toNat := hcapital
    omega
  rw [fold, if_pos (by omega)]
  exact dif_neg hsmall

/-- A text that begins with another, case aside, begins with something that folds onto the same. -/
theorem map_fold_of_afterFolded? {p t rest : Text} (h : afterFolded? p t = some rest) :
    p.map fold <+: t.map fold := by
  induction p generalizing t with
  | nil => exact List.nil_prefix
  | cons a p ih =>
    cases t with
    | nil => simp [afterFolded?] at h
    | cons c t =>
      by_cases hc : fold a = fold c
      · rw [afterFolded?, if_pos hc] at h
        rw [List.map_cons, List.map_cons, hc]
        exact (List.prefix_cons_inj _).mpr (ih h)
      · simp [afterFolded?, hc] at h

/-- Where two characters stand side by side in a text that has the first one at a single place at
most, the second one follows that place. -/
theorem head?_of_infix {x y c : Char} {t u : Text} (ht : x ∉ t) (hu : x ∉ u)
    (h : [x, y] <:+: t ++ c :: u) : u.head? = some y := by
  induction t with
  | nil =>
    obtain ⟨rest, hrest⟩ | hinside := List.infix_cons_iff.mp h
    · simp only [List.cons_append, List.nil_append, List.cons.injEq] at hrest
      rw [← hrest.2, List.head?_cons]
    · exact absurd (hinside.subset List.mem_cons_self) hu
  | cons a t ih =>
    obtain ⟨hxa, hxt⟩ := not_or.mp (mt List.mem_cons.mpr ht)
    obtain hstart | hinside := List.infix_cons_iff.mp h
    · exact absurd (List.cons_prefix_cons.mp hstart).1 hxa
    · exact ih hxt hinside

end Text

namespace Shape

open Text

theorem search_eq_none {α : Type} {read? : Text → Option α} {t : Text}
    (h : ∀ u, u <:+ t → read? u = none) : search read? t = none := by
  induction t with
  | nil => exact h [] List.suffix_rfl
  | cons c t ih =>
    have hhere := h (c :: t) List.suffix_rfl
    have hbehind := ih fun u hu => h u (hu.trans (List.suffix_cons c t))
    rw [search, hhere, hbehind]
    rfl

theorem search_of_start {α : Type} {read? : Text → Option α} {t : Text} {found : α}
    (h : read? t = some found) : search read? t = some found := by
  cases t with
  | nil => exact h
  | cons c t => rw [search, h, Option.some_or]

/-- The prose in which a character is rejected at an offset in code units. -/
def rejection (c : Char) (offset : Nat) : Text :=
  "unexpected character: ->" ++ c :: ("<- at offset: " ++ ofNat offset ++ ", skipped 1 characters.")

/-- Nothing but the rejected character can be one of these letters, and an arrow follows it. -/
theorem apart_rejection {x y c : Char} {offset : Nat} (hx : x = 'l' ∨ x = 'g') (hy : y ≠ '<') :
    ¬ [x, y] <:+: (rejection c offset).map fold := by
  intro h
  have hdigits : x ∉ (ofNat offset).map fold := by
    intro hmem
    obtain ⟨d, hd, rfl⟩ := List.mem_map.mp hmem
    have hdigit := isDigit_of_mem_ofNat hd
    rw [fold_of_isDigit hdigit] at hx
    obtain rfl | rfl := hx <;> exact absurd hdigit (by decide)
  have hopening : x ∉ ("unexpected character: ->" : Text).map fold := by
    obtain rfl | rfl := hx <;> decide
  have hclosing : x ∉ ("<- at offset: " ++ ofNat offset ++ ", skipped 1 characters." : Text).map
      fold := by
    simp only [List.map_append, List.mem_append, hdigits]
    obtain rfl | rfl := hx <;> decide
  unfold rejection at h
  rw [List.map_append, List.map_cons] at h
  have hnext := head?_of_infix hopening hclosing h
  have harrow : (("<- at offset: " ++ ofNat offset ++ ", skipped 1 characters." : Text).map
      fold).head? = some '<' := rfl
  exact hy (Option.some.inj (hnext.symm.trans harrow))

/-- Words that have such a pair of letters begin nowhere in the prose. -/
theorem not_prefix_rejection {x y c : Char} {offset : Nat} {p u : Text}
    (hx : x = 'l' ∨ x = 'g') (hy : y ≠ '<') (hp : [x, y] <:+: p.map fold)
    (hu : u <:+ rejection c offset) : ¬ p.map fold <+: u.map fold := by
  intro h
  exact apart_rejection hx hy ((hp.trans h.isInfix).trans (hu.isInfix.map fold))

theorem afterFolded?_rejection {x y c : Char} {offset : Nat} {p u : Text}
    (hx : x = 'l' ∨ x = 'g') (hy : y ≠ '<') (hp : [x, y] <:+: p.map fold)
    (hu : u <:+ rejection c offset) : afterFolded? p u = none := by
  cases h : afterFolded? p u with
  | none => rfl
  | some rest => exact absurd (map_fold_of_afterFolded? h) (not_prefix_rejection hx hy hp hu)

theorem after?_rejection {x y c : Char} {offset : Nat} {p u : Text}
    (hx : x = 'l' ∨ x = 'g') (hy : y ≠ '<') (hp : [x, y] <:+: p.map fold)
    (hu : u <:+ rejection c offset) : after? p u = none := by
  cases h : after? p u with
  | none => rfl
  | some rest =>
    obtain rfl := after?_eq_some_iff.mp h
    exact absurd ((List.prefix_append p rest).map fold) (not_prefix_rejection hx hy hp hu)

theorem run?_digits {digits rest : Text} (hne : digits ≠ []) (hdigits : ∀ c ∈ digits, isDigit c)
    (hrest : rest.takeWhile isDigit = []) : run? (digits ++ rest) = some (digits, rest) := by
  have htake : (digits ++ rest).takeWhile isDigit = digits := by
    rw [List.takeWhile_append_of_pos hdigits, hrest, List.append_nil]
  have hdrop : (digits ++ rest).dropWhile isDigit = rest := by
    have hsplit : (digits ++ rest).takeWhile isDigit ++ (digits ++ rest).dropWhile isDigit =
        digits ++ rest := List.takeWhile_append_dropWhile
    rw [htake] at hsplit
    exact List.append_cancel_left hsplit
  unfold run?
  rw [htake, hdrop]
  cases digits with
  | nil => exact absurd rfl hne
  | cons c digits => rfl

theorem unexpectedCharacterAt?_rejection {c : Char} (hc : c ≠ '\n') (offset : Nat) :
    unexpectedCharacterAt? (rejection c offset) =
      some (.unexpectedCharacter c (ofNat offset)) := by
  have hopening : after? "unexpected character: ->" (rejection c offset) =
      some (c :: ("<- at offset: " ++ ofNat offset ++ ", skipped 1 characters.")) :=
    after?_eq_some_iff.mpr rfl
  have hmiddle : after? "<- at offset: "
      ("<- at offset: " ++ ofNat offset ++ ", skipped 1 characters.") =
      some (ofNat offset ++ ", skipped 1 characters.") :=
    after?_eq_some_iff.mpr (List.append_assoc ..)
  have hdigits : ∀ d ∈ ofNat offset, isDigit d = true := by
    intro d hd
    rw [isDigit, digitValue?_of_isDigit (isDigit_of_mem_ofNat hd)]
    rfl
  have hrun : run? (ofNat offset ++ ", skipped 1 characters.") =
      some (ofNat offset, ", skipped 1 characters.".toList) :=
    run?_digits Nat.toDigits_ne_nil hdigits (by decide)
  rw [unexpectedCharacterAt?, hopening]
  simp only [if_neg hc, hmiddle, hrun, Option.bind_eq_bind, Option.bind_some]

theorem of?_rejection {c : Char} (hc : c ≠ '\n') (offset : Nat) :
    of? (rejection c offset) = some (.unexpectedCharacter c (ofNat offset)) := by
  have hparse : search parseErrorAt? (rejection c offset) = none := by
    refine search_eq_none fun u hu => ?_
    have hpair : ['l', 'i'] <:+: ("parse error on line " : Text).map fold :=
      ⟨"parse error on ".toList, "ne ".toList, rfl⟩
    rw [parseErrorAt?, afterFolded?_rejection (.inl rfl) (by decide) hpair hu]
    rfl
  have hlexical : search lexicalErrorAt? (rejection c offset) = none := by
    refine search_eq_none fun u hu => ?_
    have hpair : ['l', 'i'] <:+: ("lexical error on line " : Text).map fold :=
      ⟨"lexical error on ".toList, "ne ".toList, rfl⟩
    rw [lexicalErrorAt?, afterFolded?_rejection (.inl rfl) (by decide) hpair hu]
    rfl
  have htype : search noDiagramTypeAt? (rejection c offset) = none := by
    refine search_eq_none fun u hu => ?_
    have hpair : ['g', 'r'] <:+: ("No diagram type detected" : Text).map fold :=
      ⟨"no dia".toList, "am type detected".toList, rfl⟩
    rw [noDiagramTypeAt?, after?_rejection (.inr rfl) (by decide) hpair hu]
    rfl
  have hcharacter : search unexpectedCharacterAt? (rejection c offset) =
      some (.unexpectedCharacter c (ofNat offset)) :=
    search_of_start (unexpectedCharacterAt?_rejection hc offset)
  simp [of?, recognize?, rules, Rule.find?, hparse, hlexical, htype, hcharacter]

end Shape

namespace FreeText

open Text

/-- A rejected character is found on the line of its offset. An offset that is not read has more
digits than that of any text. -/
theorem diagnose_rejection {code : Text} {i : Nat} (hi : i ≤ code.length) {c : Char}
    (hc : c ≠ '\n') (hsize : units (code.take i) < 10 ^ digitLimit) :
    diagnose (Shape.rejection c (units (code.take i))) code =
      .ok (Template.unexpectedCharacter
        (Line.first.down (Position.lineOffset code i)) [c]) := by
  have hnumber : number (ofNat (units (code.take i))) = .ok (units (code.take i)) := by
    rw [number, readDigits_ofNat hsize]
  rw [diagnose, Shape.of?_rejection hc]
  simp only [ofShape, hnumber, bind, Except.bind]
  rw [indexOfUnits_units_take hi, Position.linesBefore_lines hi]
  rfl

end FreeText

namespace Formula

open Text

/-- An answer that rejects a formula at an offset in code units. -/
structure RejectsAt (reply : Json.Members) (offset : Nat) : Prop where
  ok : reply.get? "ok" = some (.bool false)
  name : reply.get? "name" = some (.str structuredKind)
  position : reply.get? "position" = some (.num (.int offset))

theorem verdict_ofReply {code : Text} {i : Nat} (hi : i ≤ code.length) {reply : Json.Members}
    (h : RejectsAt reply (units (code.take i))) :
    verdict (ofReply code reply) = .rejected
      { message := Reply.message reply unknownMessage, position := some (i : Int),
        structured := true } := by
  have hrejects : Reply.accepts reply = false := by
    rw [Reply.accepts, h.ok]
    rfl
  have hstructured : isStructured reply = true := isStructured_iff.mpr h.name
  have hoffset : (reply.get? "position").bind Json.asInt? =
      some ((units (code.take i) : Nat) : Int) := by
    rw [h.position]
    rfl
  have hposition : Position.ofUnitsAt? code (units (code.take i) : Nat) = .ok i := by
    rw [Position.ofUnitsAt?_ofNat, indexOfUnits_units_take hi]
  rw [ofReply, hrejects]
  simp only [Bool.false_eq_true, if_false, hstructured, if_true, hoffset, hposition]
  rfl

end Formula

namespace Position

open Text

/-- An offset that both parsers report, of a character or of the end of the code, comes to the same
line: that of the character. The failure of a formula holds the offset in characters. No machine
holds a text with an offset of more than so many digits. -/
theorem same_line_of_units {code : Text} {i : Nat} (hi : i ≤ code.length)
    {reply : Json.Members} (hreply : Formula.RejectsAt reply (units (code.take i)))
    {c : Char} (hc : c ≠ '\n') :
    ∃ line : Line, line.number = 1 + newlines (code.take i) ∧
      (∃ failure, Formula.verdict (Formula.ofReply code reply) = .rejected failure ∧
        failure.position = some (i : Int) ∧
        (Structured.diagnose failure code).line = some line) ∧
      (units (code.take i) < 10 ^ digitLimit →
        ∃ diagnostic,
          FreeText.diagnose (Shape.rejection c (units (code.take i))) code = .ok diagnostic ∧
          diagnostic.code = .unexpectedCharacter ∧ diagnostic.line = some line) := by
  refine ⟨Line.first.down (lineOffset code i), rfl, ?_, ?_⟩
  · exact ⟨_, Formula.verdict_ofReply hi hreply, rfl, rfl⟩
  · intro hsize
    exact ⟨_, FreeText.diagnose_rejection hi hc hsize, rfl, rfl⟩

/-- The second line of a text begins behind a character of two code units and a line feed. -/
theorem same_line_of_units_pair :
    (∃ failure, Formula.verdict (Formula.ofReply "𝔸\nx" [("ok", .bool false),
        ("name", .str "ParseError"), ("message", .str "bad"), ("position", .num (.int 3))]) =
          .rejected failure ∧
        failure.position = some 2 ∧
        (Structured.diagnose failure "𝔸\nx").line = some ⟨2, by decide⟩) ∧
      ∃ diagnostic, FreeText.diagnose
          "unexpected character: ->x<- at offset: 3, skipped 1 characters." "𝔸\nx" =
            .ok diagnostic ∧
        diagnostic.code = .unexpectedCharacter ∧ diagnostic.line = some ⟨2, by decide⟩ := by
  have hreply : Formula.RejectsAt [("ok", .bool false), ("name", .str "ParseError"),
      ("message", .str "bad"), ("position", .num (.int 3))] 3 := ⟨rfl, rfl, rfl⟩
  have hsize : 3 < 10 ^ digitLimit :=
    Nat.lt_of_lt_of_le (by decide) (Nat.pow_le_pow_right (by decide) (by decide : 1 ≤ digitLimit))
  obtain ⟨line, hline, hformula, hdiagram⟩ :=
    @same_line_of_units "𝔸\nx" 2 (by decide) _ hreply 'x' (by decide)
  obtain rfl : line = ⟨2, by decide⟩ := by
    cases line
    cases hline
    rfl
  exact ⟨hformula, hdiagram hsize⟩

end Position

end FragmentLint
