import FragmentLint.Proofs.JsonText
import Mathlib.Algebra.GroupWithZero.Nat

/-!
# What a value weighs

Texts and values are given a weight. To read a value takes a text of at least its weight, and a
text of it that is printed without spaces and with no escapes but the needed ones has no more. So
nothing that lacks a part of such a text can be read as the same value. What numerals and escaped
units are made of weighs nothing, since the same value may be written with more or fewer of them.
-/
namespace FragmentLint.Json

/-- What a character weighs. Those of numerals and of escaped units weigh nothing. -/
def weightOf (c : Char) : Nat :=
  if (Text.hexValue? c).isSome || c = '+' || c = '-' || c = '.' then 0 else 1

def weight (t : Text) : Nat :=
  (t.map weightOf).sum

@[simp] theorem weight_nil : weight [] = 0 := rfl

@[simp] theorem weight_cons (c : Char) (t : Text) : weight (c :: t) = weightOf c + weight t := by
  simp [weight]

@[simp] theorem weight_append (t u : Text) : weight (t ++ u) = weight t + weight u := by
  simp [weight]

theorem weightOf_le_one (c : Char) : weightOf c ≤ 1 := by
  unfold weightOf
  split <;> decide

theorem weight_sublist {t u : Text} (h : t.Sublist u) : weight t ≤ weight u := by
  induction h with
  | slnil => exact Nat.le_refl _
  | cons c h ih =>
    rw [weight_cons]
    omega
  | cons_cons c h ih =>
    rw [weight_cons, weight_cons]
    omega

theorem weightOf_of_isDigit {c : Char} (h : c.isDigit = true) : weightOf c = 0 := by
  simp [weightOf, Text.hexValue?, h]

theorem weight_eq_zero {t : Text} (h : ∀ c ∈ t, weightOf c = 0) : weight t = 0 := by
  induction t with
  | nil => rfl
  | cons c t ih =>
    obtain ⟨hc, ht⟩ := List.forall_mem_cons.mp h
    rw [weight_cons, hc, ih ht]

def textWeight (s : Text) : Nat :=
  2 + weight (s.flatMap (escapedChar false))

mutual

/-- What a value weighs, however it is written. -/
def valueWeight : Json → Nat
  | .null => 4
  | .bool true => 3
  | .bool false => 2
  | .num _ => 0
  | .str s => textWeight s
  | .arr [] => 2
  | .arr (item :: items) => 1 + valueWeight item + itemsWeight items
  | .obj [] => 2
  | .obj ((name, value) :: members) =>
    1 + (textWeight name + 1 + valueWeight value) + membersWeight members

/-- What the items of an array behind its first one weigh, with the closing bracket. -/
def itemsWeight : List Json → Nat
  | [] => 1
  | item :: items => 1 + valueWeight item + itemsWeight items

/-- What the members of an object behind its first one weigh, with the closing brace. -/
def membersWeight : List (Text × Json) → Nat
  | [] => 1
  | (name, value) :: members =>
    1 + (textWeight name + 1 + valueWeight value) + membersWeight members

end

theorem weight_hex (n : Nat) (width : Nat) : weight (Text.hex width n) = 0 := by
  have hdigit : ∀ d, d < 16 → weightOf (Nat.digitChar d) = 0 := by decide
  induction width generalizing n with
  | zero => rfl
  | succ width ih => simp [Text.hex, ih, hdigit _ (Nat.mod_lt n (by decide : 16 > 0))]

theorem weight_quotedText (s : Text) : weight (quotedText false s) = textWeight s := by
  have hquote : weightOf '"' = 1 := by decide
  simp [quotedText, textWeight, hquote]
  omega

theorem weight_numeral (n : Numeral) : weight n.text = 0 :=
  weight_eq_zero
    (n.forall_mem_text (fun _ => weightOf_of_isDigit) (by simp [weightOf, Text.hexValue?]))

theorem weight_comma : weight Style.reply.comma = 1 := by decide

theorem weight_colon : weight Style.reply.colon = 1 := by decide

/-- What a member weighs, its name in front of the colon. -/
theorem weight_member (name : Text) {t : Text} {n : Nat} (h : weight t = n) (u : Text) :
    weight (quotedText Style.reply.basicOnly name ++ (Style.reply.colon ++ (t ++ u))) =
      textWeight name + 1 + n + weight u := by
  have hname : weight (quotedText Style.reply.basicOnly name) = textWeight name :=
    weight_quotedText name
  rw [weight_append, weight_append, weight_append, hname, weight_colon, h]
  omega

mutual

/-- The text of a value weighs what the value does. -/
theorem weight_printed : ∀ (v : Json) {t : Text}, Printed .reply v t → weight t = valueWeight v
  | .null, _, .null => by decide
  | .bool true, _, .yes => by decide
  | .bool false, _, .no => by decide
  | .num _, _, .num n => by
    rw [weight_numeral, valueWeight]
  | .str s, _, .str _ => by
    rw [valueWeight]
    exact weight_quotedText s
  | .arr [], _, .noItems => by decide
  | .arr (item :: items), _, .arr hitem hitems => by
    have hopen : weightOf '[' = 1 := by decide
    rw [weight_cons, weight_append, weight_printed item hitem, weight_printedItems items hitems,
      hopen, valueWeight]
    omega
  | .obj [], _, .noMembers => by decide
  | .obj ((name, v) :: members), _, .obj hname hvalue hmembers => by
    have hopen : weightOf '\x7b' = 1 := by decide
    rw [weight_cons, weight_member name (weight_printed v hvalue),
      weight_printedMembers members hmembers, hopen, valueWeight]
    omega

theorem weight_printedItems : ∀ (items : List Json) {t : Text}, PrintedItems .reply items t →
    weight t = itemsWeight items
  | [], _, .done => by decide
  | item :: items, _, .more hitem hitems => by
    rw [weight_append, weight_append, weight_printed item hitem,
      weight_printedItems items hitems, weight_comma, itemsWeight]
    omega

theorem weight_printedMembers : ∀ (members : Members) {t : Text},
    PrintedMembers .reply members t → weight t = membersWeight members
  | [], _, .done => by decide
  | (name, v) :: members, _, .more hname hvalue hmembers => by
    rw [weight_append, weight_member name (weight_printed v hvalue),
      weight_printedMembers members hmembers, weight_comma, membersWeight]
    omega

end

theorem weight_skipSpace (t : Text) : weight (skipSpace t) ≤ weight t :=
  weight_sublist (List.dropWhile_sublist isSpace)

theorem weight_unit? {t rest : Text} {n : Nat} (h : unit? t = some (n, rest)) :
    weight rest ≤ weight t := by
  match t with
  | a :: b :: c :: d :: t =>
    simp only [unit?, Option.bind_eq_bind, Option.bind_eq_some_iff, Option.some.injEq,
      Prod.mk.injEq] at h
    obtain ⟨_, -, _, -, _, -, _, -, -, rfl⟩ := h
    simp only [weight_cons]
    omega
  | [] | [_] | [_, _] | [_, _, _] => simp [unit?] at h

/-- A character between quotes weighs two at most. -/
theorem weight_escapedChar_le (c : Char) : weight (escapedChar false c) ≤ 2 := by
  have hescapes := escapes false c
  generalize escapedChar false c = u at hescapes ⊢
  cases hescapes with
  | @short d hread hd hc =>
    have hslash := weightOf_le_one '\\'
    have hd := weightOf_le_one d
    simp only [weight_cons, weight_nil]
    omega
  | unit hc hcontrol =>
    have hslash := weightOf_le_one '\\'
    have hu := weightOf_le_one 'u'
    rw [escapedUnit, weight_cons, weight_cons, weight_hex]
    omega
  | pair hc hbasic => cases hbasic
  | plain hquote hslash hc =>
    have hc := weightOf_le_one c
    simp only [weight_cons, weight_nil]
    omega

/-- Escapes by units weigh as much as any character may. -/
theorem weight_escape? {t rest : Text} {c : Char} (h : escape? t = some (c, rest)) :
    weight (escapedChar false c) + weight rest ≤ 1 + weight t := by
  unfold escape? at h
  split at h
  all_goals try
    obtain ⟨rfl, rfl⟩ := Prod.mk.inj (Option.some.inj h)
    rw [weight_cons, ← Nat.add_assoc]
    exact Nat.add_le_add_right (by decide) _
  · rename_i t
    have hmark : weightOf 'u' = 1 := by decide
    have hchar := weight_escapedChar_le c
    suffices hrest : weight rest ≤ weight t by
      rw [weight_cons, hmark]
      omega
    obtain ⟨⟨high, u⟩, hu, h⟩ := Option.bind_eq_some_iff.mp h
    refine Nat.le_trans ?_ (weight_unit? hu)
    dsimp only at h
    split at h
    · split at h
      · rename_i v
        cases hv : unit? v with
        | none =>
          rw [hv] at h
          obtain ⟨-, rfl⟩ := Prod.mk.inj (Option.some.inj h)
          exact Nat.le_refl _
        | some r =>
          obtain ⟨low, w⟩ := r
          rw [hv] at h
          dsimp only at h
          have hw := weight_unit? hv
          split at h
          all_goals
            obtain ⟨-, rfl⟩ := Prod.mk.inj (Option.some.inj h)
            simp only [weight_cons]
            omega
      · obtain ⟨-, rfl⟩ := Prod.mk.inj (Option.some.inj h)
        exact Nat.le_refl _
    · split at h
      all_goals
        obtain ⟨-, rfl⟩ := Prod.mk.inj (Option.some.inj h)
        exact Nat.le_refl _
  · cases h

theorem escapedChar_plain {c : Char} (hquote : c ≠ '"') (hslash : c ≠ '\\')
    (hplain : 0x20 ≤ c.toNat) : escapedChar false c = [c] := by
  have hne : ∀ d : Char, d.toNat < 0x20 → c ≠ d := by
    rintro d hd rfl
    omega
  simp [escapedChar, hquote, hslash, hne '\n' (by decide), hne '\r' (by decide),
    hne '\t' (by decide), show c.toNat ≠ 8 by omega, show c.toNat ≠ 12 by omega,
    show ¬ c.toNat < 0x20 by omega]

theorem weight_quotedBody? {t body rest : Text} (h : quotedBody? t = some (body, rest)) :
    weight (body.flatMap (escapedChar false)) + 1 + weight rest ≤ weight t := by
  have hmarks : weightOf '"' = 1 ∧ weightOf '\\' = 1 := by decide
  fun_induction quotedBody? t generalizing body rest with
  | case1 => cases h
  | case2 t =>
    obtain ⟨rfl, rfl⟩ := Prod.mk.inj (Option.some.inj h)
    simp [hmarks]
  | case3 t hescape => cases h
  | case4 t d u hescape hne ih =>
    obtain ⟨⟨body', rest'⟩, hbody, heq⟩ := Option.map_eq_some_iff.mp h
    obtain ⟨rfl, rfl⟩ := Prod.mk.inj heq
    have hd := weight_escape? hescape
    have hrest := ih hbody
    rw [List.flatMap_cons, weight_append, weight_cons, hmarks.2]
    omega
  | case5 c t hquote hslash hcontrol => cases h
  | case6 c t hquote hslash hcontrol ih =>
    obtain ⟨⟨body', rest'⟩, hbody, heq⟩ := Option.map_eq_some_iff.mp h
    obtain ⟨rfl, rfl⟩ := Prod.mk.inj heq
    have hrest := ih hbody
    rw [List.flatMap_cons, weight_append, escapedChar_plain hquote hslash (by omega), weight_cons,
      weight_cons, weight_nil]
    omega

theorem weight_digits_behind (t : Text) : weight (digits t).2 ≤ weight t :=
  weight_sublist (List.dropWhile_sublist _)

theorem weight_wholeDigits (t : Text) : weight (wholeDigits t).2 ≤ weight t := by
  unfold wholeDigits
  split
  · rename_i u
    rw [weight_cons]
    exact Nat.le_add_left _ _
  · exact weight_digits_behind t

theorem weight_fraction? (t : Text) : weight ((fraction? t).getD ([], t)).2 ≤ weight t := by
  unfold fraction?
  split
  · rename_i u
    split
    · exact Nat.le_refl _
    · rename_i found hfound
      have hu := weight_digits_behind u
      rw [weight_cons]
      simp only [Option.getD_some]
      omega
  · exact Nat.le_refl _

theorem weight_exponent? {t rest : Text} {e : Int} (h : exponent? t = some (e, rest)) :
    weight rest ≤ weight t := by
  unfold exponent? at h
  split at h
  · rename_i c u
    split at h
    · split at h
      rename_i negative signless hsign
      have hsignless : weight signless ≤ weight u := by
        split at hsign
        all_goals
          obtain ⟨-, rfl⟩ := Prod.mk.inj hsign
          simp
      have hbehind := weight_digits_behind signless
      split at h
      · cases h
      · rename_i ds behind hdigits
        obtain ⟨-, rfl⟩ := Prod.mk.inj (Option.some.inj h)
        rw [hdigits] at hbehind
        rw [weight_cons]
        dsimp only at hbehind
        omega
    · cases h
  · cases h

theorem weight_exponentPart (t : Text) : weight (exponentPart t).2 ≤ weight t := by
  unfold exponentPart
  cases h : exponent? t with
  | none => exact Nat.le_refl _
  | some r => exact weight_exponent? h

theorem weight_unsigned {negative : Bool} {t rest : Text} {v : Json}
    (h : unsigned negative t = .ok (v, rest)) : valueWeight v + weight rest ≤ weight t := by
  rw [unsigned_eq] at h
  obtain ⟨⟨whole, u⟩, hwhole⟩ : ∃ r, wholeDigits t = r := ⟨_, rfl⟩
  have ht := weight_wholeDigits t
  rw [hwhole] at h ht
  dsimp only at h ht
  obtain ⟨⟨fraction, w⟩, hfraction⟩ : ∃ r, (fraction? u).getD ([], u) = r := ⟨_, rfl⟩
  have hu := weight_fraction? u
  rw [hfraction] at h hu
  dsimp only at h hu
  obtain ⟨⟨exponent, x⟩, hexponent⟩ : ∃ r, exponentPart w = r := ⟨_, rfl⟩
  have hw := weight_exponentPart w
  rw [hexponent] at h hw
  dsimp only at h hw
  split at h
  · cases h
  · split at h
    · split at h
      · obtain ⟨rfl, rfl⟩ := Prod.mk.inj (Except.ok.inj h)
        rw [valueWeight]
        omega
      · cases h
    · obtain ⟨rfl, rfl⟩ := Prod.mk.inj (Except.ok.inj h)
      rw [valueWeight]
      omega

theorem weight_scalar {t rest : Text} {v : Json} (h : scalar t = .ok (v, rest)) :
    valueWeight v + weight rest ≤ weight t := by
  unfold scalar at h
  split at h
  · rename_i found hfound
    obtain rfl := Except.ok.inj h
    obtain ⟨⟨word, value⟩, hmem, hafter⟩ := List.exists_of_findSome?_eq_some hfound
    obtain ⟨after, hword, heq⟩ := Option.map_eq_some_iff.mp hafter
    obtain ⟨rfl, rfl⟩ := Prod.mk.inj heq
    rw [Text.after?_eq_some_iff.mp hword, weight_append]
    refine Nat.add_le_add_right ?_ _
    have hwords : ∀ w ∈ words, valueWeight w.2 ≤ weight w.1 := by
      simp only [words, List.forall_mem_cons, valueWeight]
      decide
    exact hwords _ hmem
  · split at h
    · rename_i u
      have hu := weight_unsigned h
      rw [weight_cons]
      omega
    · exact weight_unsigned h

/-- What members weigh, each with what stands in front of it. -/
def memberSum (members : Members) : Nat :=
  (members.map fun m => 1 + (textWeight m.1 + 1 + valueWeight m.2)).sum

theorem membersWeight_eq (members : Members) : membersWeight members = memberSum members + 1 := by
  induction members with
  | nil => rfl
  | cons m members ih =>
    obtain ⟨name, v⟩ := m
    rw [membersWeight, ih, memberSum, memberSum, List.map_cons, List.sum_cons]
    dsimp only
    omega

theorem valueWeight_obj {members : Members} (h : members ≠ []) :
    valueWeight (.obj members) = memberSum members + 1 := by
  obtain ⟨⟨name, v⟩, members, rfl⟩ := List.exists_cons_of_ne_nil h
  rw [← membersWeight_eq, valueWeight, membersWeight]

theorem memberSum_put_le (members : Members) (name : Text) (v : Json) :
    memberSum (members.put name v) ≤
      memberSum members + (1 + (textWeight name + 1 + valueWeight v)) := by
  induction members with
  | nil => simp [Members.put, memberSum]
  | cons m members ih =>
    obtain ⟨other, old⟩ := m
    unfold memberSum at ih ⊢
    by_cases h : other = name
    · subst h
      simp only [Members.put, if_true, List.map_cons, List.sum_cons]
      omega
    · simp only [Members.put, h, if_false, List.map_cons, List.sum_cons]
      omega

theorem put_ne_nil (members : Members) (name : Text) (v : Json) : members.put name v ≠ [] := by
  cases members with
  | nil => simp [Members.put]
  | cons m members =>
    unfold Members.put
    split <;> simp

/-- With so much fuel nothing is read that weighs more than its text. -/
structure Weighed (fuel : Nat) : Prop where
  value : ∀ room t v rest, Json.value fuel room t = .ok (v, rest) →
    valueWeight v + weight rest ≤ weight t
  items : ∀ room t items rest, moreItems fuel room t = .ok (items, rest) →
    itemsWeight items + weight rest ≤ weight t
  member : ∀ room t name v rest, Json.member fuel room t = .ok ((name, v), rest) →
    textWeight name + 1 + valueWeight v + weight rest ≤ weight t
  members : ∀ room read t v rest, read ≠ [] → moreMembers fuel room read t = .ok (v, rest) →
    valueWeight v + weight rest ≤ memberSum read + weight t

theorem ok_of_bind {α β : Type} {result : Except ReadFault α} {next : α → Except ReadFault β}
    {b : β} (h : result.bind next = .ok b) : ∃ a, result = .ok a ∧ next a = .ok b := by
  cases result with
  | error fault => cases h
  | ok a => exact ⟨a, rfl, h⟩

section Step

variable {fuel : Nat} (ih : Weighed fuel)
include ih

theorem weighed_items (room : Nat) {t : Text} {items : List Json} {rest : Text}
    (h : moreItems (fuel + 1) room t = .ok (items, rest)) :
    itemsWeight items + weight rest ≤ weight t := by
  unfold moreItems at h
  split at h
  · obtain ⟨rfl, rfl⟩ := Prod.mk.inj (Except.ok.inj h)
    simp [itemsWeight, show weightOf ']' = 1 by decide]
  · rename_i u
    obtain ⟨⟨item, w⟩, hitem, h⟩ := ok_of_bind h
    obtain ⟨⟨more, x⟩, hmore, h⟩ := ok_of_bind h
    obtain ⟨rfl, rfl⟩ := Prod.mk.inj (Except.ok.inj h)
    have hitem := ih.value _ _ _ _ hitem
    have hmore := ih.items _ _ _ _ hmore
    have hu := weight_skipSpace u
    have hw := weight_skipSpace w
    rw [itemsWeight, weight_cons, show weightOf ',' = 1 by decide]
    omega
  · cases h

theorem weighed_member (room : Nat) {t name : Text} {v : Json} {rest : Text}
    (h : member (fuel + 1) room t = .ok ((name, v), rest)) :
    textWeight name + 1 + valueWeight v + weight rest ≤ weight t := by
  unfold member at h
  split at h
  · rename_i u
    split at h
    · cases h
    · rename_i name' w hname
      split at h
      · rename_i x hcolon
        obtain ⟨⟨v', y⟩, hvalue, h⟩ := ok_of_bind h
        obtain ⟨heq, rfl⟩ := Prod.mk.inj (Except.ok.inj h)
        obtain ⟨rfl, rfl⟩ := Prod.mk.inj heq
        have hname := weight_quotedBody? hname
        have hvalue := ih.value _ _ _ _ hvalue
        have hw := weight_skipSpace w
        have hx := weight_skipSpace x
        rw [hcolon, weight_cons, show weightOf ':' = 1 by decide] at hw
        rw [weight_cons, textWeight, show weightOf '"' = 1 by decide]
        omega
      · cases h
  · cases h

theorem weighed_members (room : Nat) {read : Members} {t : Text} {v : Json} {rest : Text}
    (hread : read ≠ []) (h : moreMembers (fuel + 1) room read t = .ok (v, rest)) :
    valueWeight v + weight rest ≤ memberSum read + weight t := by
  unfold moreMembers at h
  split at h
  · obtain ⟨rfl, rfl⟩ := Prod.mk.inj (Except.ok.inj h)
    rw [valueWeight_obj hread, weight_cons, show weightOf '\x7d' = 1 by decide]
    omega
  · rename_i u
    obtain ⟨⟨⟨name, w⟩, x⟩, hmember, h⟩ := ok_of_bind h
    have hmember := ih.member _ _ _ _ _ hmember
    have hmore := ih.members _ _ _ _ _ (put_ne_nil read name w) h
    have hput := memberSum_put_le read name w
    have hu := weight_skipSpace u
    have hx := weight_skipSpace x
    rw [weight_cons, show weightOf ',' = 1 by decide]
    omega
  · cases h

theorem weighed_value (room : Nat) {t : Text} {v : Json} {rest : Text}
    (h : value (fuel + 1) room t = .ok (v, rest)) : valueWeight v + weight rest ≤ weight t := by
  unfold value at h
  split at h
  · rename_i u
    split at h
    · rename_i body w hbody
      obtain ⟨rfl, rfl⟩ := Prod.mk.inj (Except.ok.inj h)
      have hbody := weight_quotedBody? hbody
      rw [valueWeight, textWeight, weight_cons, show weightOf '"' = 1 by decide]
      omega
    · cases h
  · rename_i u
    split at h
    · cases h
    · have hu := weight_skipSpace u
      rw [weight_cons, show weightOf '[' = 1 by decide]
      split at h
      · rename_i w hclose
        obtain ⟨rfl, rfl⟩ := Prod.mk.inj (Except.ok.inj h)
        rw [hclose, weight_cons, show weightOf ']' = 1 by decide] at hu
        rw [valueWeight]
        omega
      · obtain ⟨⟨item, w⟩, hitem, h⟩ := ok_of_bind h
        obtain ⟨⟨items, x⟩, hitems, h⟩ := ok_of_bind h
        obtain ⟨rfl, rfl⟩ := Prod.mk.inj (Except.ok.inj h)
        have hitem := ih.value _ _ _ _ hitem
        have hitems := ih.items _ _ _ _ hitems
        have hw := weight_skipSpace w
        rw [valueWeight]
        omega
  · rename_i u
    split at h
    · cases h
    · have hu := weight_skipSpace u
      rw [weight_cons, show weightOf '\x7b' = 1 by decide]
      split at h
      · rename_i w hclose
        obtain ⟨rfl, rfl⟩ := Prod.mk.inj (Except.ok.inj h)
        rw [hclose, weight_cons, show weightOf '\x7d' = 1 by decide] at hu
        rw [valueWeight]
        omega
      · obtain ⟨⟨⟨name, w⟩, x⟩, hmember, h⟩ := ok_of_bind h
        have hmember := ih.member _ _ _ _ _ hmember
        have hmembers := ih.members _ [(name, w)] _ _ _ (by simp) h
        have hx := weight_skipSpace x
        simp only [memberSum, List.map_cons, List.map_nil, List.sum_cons, List.sum_nil] at hmembers
        omega
  · exact weight_scalar h

end Step

theorem weighed (fuel : Nat) : Weighed fuel := by
  induction fuel with
  | zero =>
    refine ⟨?_, ?_, ?_, ?_⟩
    · intro room t v rest h
      unfold Json.value at h
      cases h
    · intro room t items rest h
      unfold moreItems at h
      cases h
    · intro room t name v rest h
      unfold Json.member at h
      cases h
    · intro room read t v rest hread h
      unfold moreMembers at h
      cases h
  | succ fuel ih =>
    exact {
      value := fun room _ _ _ h => weighed_value ih room h
      items := fun room _ _ _ h => weighed_items ih room h
      member := fun room _ _ _ _ h => weighed_member ih room h
      members := fun room _ _ _ _ hread h => weighed_members ih room hread h }

/-- Whatever is read from a text weighs no more than the text. -/
theorem weight_read [Host] {t : Text} {v : Json} (h : read t = .ok v) :
    valueWeight v ≤ weight t := by
  unfold read at h
  split at h
  · cases h
  · rename_i result rest hvalue
    split at h
    · obtain rfl := Except.ok.inj h
      have hresult := (weighed _).value _ _ _ _ hvalue
      have ht := weight_skipSpace t
      omega
    · cases h

end FragmentLint.Json
