import FragmentLint.Proofs.Framing
import FragmentLint.Proofs.UnitOffsets

/-!
# What is printed is a text of the value

The texts of a value are given by their grammar, and a number is open in them. Here the printer is
tied to that grammar: whatever it prints is one of the texts of the value, if numbers are whole and
can be read, and if no two members of an object have one name. A property of all characters of such
a text has to be shown only for the characters of the basic alphabet, for the escapes of single
characters, and for what separates items.
-/
namespace FragmentLint.Json

theorem toDigits_head {n : Nat} (h : (Text.ofNat n).head? = some '0') : n = 0 := by
  induction n using Nat.strong_induction_on with
  | _ n ih =>
    unfold Text.ofNat at h ih
    by_cases hsmall : n < 10
    · rw [Nat.toDigits_of_lt_base hsmall] at h
      have hdigit : ∀ d, d < 10 → Nat.digitChar d = '0' → d = 0 := by decide
      exact hdigit n hsmall (Option.some.inj h)
    · -- The last digit stands behind those of the tenth part, which begin with a zero too.
      rw [Nat.toDigits_of_base_le (by decide) (by omega),
        List.head?_append_of_ne_nil _ Nat.toDigits_ne_nil] at h
      have htenth := ih (n / 10) (by omega) h
      omega

/-- A whole number as it is written, if it can be read. -/
def Numeral.ofInt (n : Int) (h : (Text.ofNat n.natAbs).length ≤ Text.digitLimit) : Numeral where
  negative := decide (n < 0)
  whole := Text.ofNat n.natAbs
  whole_digits := fun _ => Text.isDigit_of_mem_ofNat
  whole_ne_nil := Nat.toDigits_ne_nil
  whole_lead := fun hzero => by rw [toDigits_head hzero]; rfl
  whole_length := h
  fraction_digits := by simp
  exponent_digits := by simp
  exponent_ne_nil := by simp

theorem Numeral.text_ofInt (n : Int) (h : (Text.ofNat n.natAbs).length ≤ Text.digitLimit) :
    (Numeral.ofInt n h).text = Text.ofInt n := by
  cases n with
  | ofNat n => simp [text, ofInt, signText, exponentText, Text.ofInt]
  | negSucc n => simp [text, ofInt, signText, exponentText, Text.ofInt, Int.negSucc_lt_zero]

theorem Numeral.value_ofInt (n : Int) (h : (Text.ofNat n.natAbs).length ≤ Text.digitLimit) :
    (Numeral.ofInt n h).value = .int n := by
  have hvalue : (Numeral.ofInt n h).value =
      .int (if decide (n < 0) = true then -(Text.digitsValue (Text.ofNat n.natAbs) : Int)
        else Text.digitsValue (Text.ofNat n.natAbs)) := rfl
  rw [hvalue, Text.digitsValue_ofNat]
  congr 1
  by_cases hn : n < 0
  · rw [if_pos (decide_eq_true hn)]
    omega
  · rw [if_neg (by simpa using hn)]
    omega

mutual

/-- A value whose text can be read back: its numbers are whole and not too long, and no two members
of an object have one name. -/
def Writable : Json → Prop
  | .num (.int n) => (Text.ofNat n.natAbs).length ≤ Text.digitLimit
  | .num (.real _) => False
  | .arr items => WritableItems items
  | .obj members => WritableMembers members
  | _ => True

/-- Items whose texts can be read back. -/
def WritableItems : List Json → Prop
  | [] => True
  | item :: items => Writable item ∧ WritableItems items

/-- Members whose texts can be read back. -/
def WritableMembers : List (Text × Json) → Prop
  | [] => True
  | (name, value) :: members =>
    (∀ m ∈ members, m.1 ≠ name) ∧ Writable value ∧ WritableMembers members

end

theorem writableItems_iff {items : List Json} :
    WritableItems items ↔ ∀ item ∈ items, Writable item := by
  induction items with
  | nil => simp [WritableItems]
  | cons item items ih => simp [WritableItems, ih]

theorem writableMembers_iff {members : Members} :
    WritableMembers members ↔
      (members.map Prod.fst).Nodup ∧ ∀ m ∈ members, Writable m.2 := by
  induction members with
  | nil => simp [WritableMembers]
  | cons m members ih =>
    obtain ⟨name, v⟩ := m
    have hnew : (∀ m ∈ members, m.1 ≠ name) ↔ name ∉ members.map Prod.fst := by
      simp only [List.mem_map, not_exists, not_and]
    simp only [WritableMembers, ih, hnew, List.map_cons, List.nodup_cons, List.forall_mem_cons]
    tauto

variable (style : Style)

mutual

/-- What is printed is a text of the value. -/
theorem printed_render : ∀ (v : Json), Writable v → Printed style v (render style v)
  | .null, _ => .null
  | .bool true, _ => .yes
  | .bool false, _ => .no
  | .num (.int n), h => by
    have hlength : (Text.ofNat n.natAbs).length ≤ Text.digitLimit := h
    have hnumeral : Printed style _ _ := .num (Numeral.ofInt n hlength)
    rwa [Numeral.value_ofInt, Numeral.text_ofInt] at hnumeral
  | .num (.real _), h => False.elim h
  | .str s, _ => by
    rw [render]
    exact .str s
  | .arr [], _ => .noItems
  | .arr (item :: items), h => by
    obtain ⟨hitem, hitems⟩ := h
    rw [render]
    exact .arr (printed_render item hitem) (printed_renderItems items hitems)
  | .obj [], _ => .noMembers
  | .obj ((name, v) :: members), h => by
    obtain ⟨hname, hvalue, hmembers⟩ := h
    simp only [render, List.cons_append, List.append_assoc]
    exact .obj hname (printed_render v hvalue) (printed_renderMembers members hmembers)

theorem printed_renderItems : ∀ (items : List Json), WritableItems items →
    PrintedItems style items (renderItems style items)
  | [], _ => .done
  | item :: items, h => by
    obtain ⟨hitem, hitems⟩ := h
    simp only [renderItems, List.append_assoc]
    exact .more (printed_render item hitem) (printed_renderItems items hitems)

theorem printed_renderMembers : ∀ (members : Members), WritableMembers members →
    PrintedMembers style members (renderMembers style members)
  | [], _ => .done
  | (name, v) :: members, h => by
    obtain ⟨hname, hvalue, hmembers⟩ := h
    simp only [renderMembers, List.append_assoc]
    exact .more hname (printed_render v hvalue) (printed_renderMembers members hmembers)

end

/-- A property of all characters from which the texts of values are made up in a style. -/
structure Style.Spells (style : Style) (P : Char → Prop) : Prop where
  basic : ∀ c, Basic c → P c
  escaped : ∀ c, ∀ d ∈ escapedChar style.basicOnly c, P d
  comma : ∀ c ∈ style.comma, P c
  colon : ∀ c ∈ style.colon, P c

section Characters

variable {style} {P : Char → Prop} (hP : style.Spells P)
include hP

theorem forall_mem_marks {t : Text} (h : t.all (Basic ·) = true) : ∀ c ∈ t, P c := by
  intro c hc
  exact hP.basic c (of_decide_eq_true (List.all_eq_true.mp h c hc))

theorem forall_mem_quoted (s : Text) : ∀ c ∈ quotedText style.basicOnly s, P c := by
  have hquote : P '"' := hP.basic _ (by decide)
  intro c hc
  simp only [quotedText, List.cons_append, List.mem_cons, List.mem_append, List.mem_flatMap,
    List.not_mem_nil, or_false] at hc
  obtain rfl | ⟨d, -, hd⟩ | rfl := hc
  · exact hquote
  · exact hP.escaped d c hd
  · exact hquote

/-- The characters of a member, in front of those that come behind it. -/
theorem forall_mem_member (name : Text) {t u : Text} (ht : ∀ c ∈ t, P c) (hu : ∀ c ∈ u, P c) :
    ∀ c ∈ quotedText style.basicOnly name ++ (style.colon ++ (t ++ u)), P c := by
  simp only [List.forall_mem_append]
  exact ⟨forall_mem_quoted hP name, hP.colon, ht, hu⟩

mutual

/-- What holds of those characters holds of all characters of a text of a value. -/
theorem forall_mem_printed : ∀ (v : Json) {t : Text}, Printed style v t → ∀ c ∈ t, P c
  | .null, _, .null => forall_mem_marks hP (by decide)
  | .bool true, _, .yes => forall_mem_marks hP (by decide)
  | .bool false, _, .no => forall_mem_marks hP (by decide)
  | .num _, _, .num n =>
    n.forall_mem_text (fun c hc => hP.basic c (basic_of_isDigit hc))
      (forall_mem_marks hP (by decide))
  | .str _, _, .str s => forall_mem_quoted hP s
  | .arr [], _, .noItems => forall_mem_marks hP (by decide)
  | .arr (item :: items), _, .arr hitem hitems =>
    List.forall_mem_cons.mpr ⟨hP.basic _ (by decide), List.forall_mem_append.mpr
      ⟨forall_mem_printed item hitem, forall_mem_printedItems items hitems⟩⟩
  | .obj [], _, .noMembers => forall_mem_marks hP (by decide)
  | .obj ((name, v) :: members), _, .obj hname hvalue hmembers =>
    List.forall_mem_cons.mpr ⟨hP.basic _ (by decide), forall_mem_member hP name
      (forall_mem_printed v hvalue) (forall_mem_printedMembers members hmembers)⟩

theorem forall_mem_printedItems : ∀ (items : List Json) {t : Text}, PrintedItems style items t →
    ∀ c ∈ t, P c
  | [], _, .done => forall_mem_marks hP (by decide)
  | item :: items, _, .more hitem hitems => by
    simp only [List.forall_mem_append]
    exact ⟨hP.comma, forall_mem_printed item hitem, forall_mem_printedItems items hitems⟩

theorem forall_mem_printedMembers : ∀ (members : Members) {t : Text},
    PrintedMembers style members t → ∀ c ∈ t, P c
  | [], _, .done => forall_mem_marks hP (by decide)
  | (name, v) :: members, _, .more hname hvalue hmembers =>
    List.forall_mem_append.mpr ⟨hP.comma, forall_mem_member hP name
      (forall_mem_printed v hvalue) (forall_mem_printedMembers members hmembers)⟩

end

end Characters

/-- No character between quotes is a control character. -/
theorem plain_escapedChar (basicOnly : Bool) (c : Char) :
    ∀ d ∈ escapedChar basicOnly c, 0x20 ≤ d.toNat := by
  have hunit : ∀ n, ∀ d ∈ escapedUnit n, 0x20 ≤ d.toNat := fun n d hd =>
    (basic_escapedUnit n d hd).1
  have hescapes := escapes basicOnly c
  generalize escapedChar basicOnly c = t at hescapes
  cases hescapes with
  | short hread hd hc => exact List.forall_mem_cons.mpr ⟨by decide, by simpa using hd.1⟩
  | unit hc hcontrol => exact hunit _
  | pair hc hbasic => exact List.forall_mem_append.mpr ⟨hunit _, hunit _⟩
  | plain hquote hslash hc => simpa using hc

theorem Style.spells_plain_report : Style.report.Spells fun c => 0x20 ≤ c.toNat where
  basic := fun _ hc => hc.1
  escaped := plain_escapedChar _
  comma := by simp [Style.report]
  colon := by simp [Style.report]

/-- A value is shown in a report on one line. -/
theorem feed_not_mem_printed {v : Json} {t : Text} (h : Printed .report v t) : '\n' ∉ t := by
  intro hfeed
  have hplain := forall_mem_printed Style.spells_plain_report v h _ hfeed
  exact absurd hplain (by decide)

end FragmentLint.Json
