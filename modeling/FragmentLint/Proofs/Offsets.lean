import FragmentLint.Proofs.UnitOffsets
import Mathlib.Order.Bounds.Basic

/-!
# What offsets stand for

An offset in code units need not be that of a character: it may lie within a pair of units or
past the end of the text. The conversion is described here by the beginnings of the text alone.
It finds the first one that is long enough, and past the end it keeps the distance. In the same
way the walk along the lines is described by counting, wherever the offset lies.
-/
namespace FragmentLint

namespace Text

@[simp] theorem indexOfUnits_zero (t : Text) : indexOfUnits t 0 = 0 := by
  cases t <;> rfl

@[simp] theorem indexOfUnits_nil (offset : Nat) : indexOfUnits [] offset = offset := by
  cases offset <;> rfl

theorem indexOfUnits_cons (c : Char) (t : Text) {offset : Nat} (h : 0 < offset) :
    indexOfUnits (c :: t) offset = indexOfUnits t (offset - unitsOf c) + 1 := by
  obtain ⟨offset, rfl⟩ := Nat.exists_eq_succ_of_ne_zero h.ne'
  rfl

/-- The index found for an offset is at most that of a place exactly if the beginning of the text
up to that place is long enough. -/
theorem indexOfUnits_le_iff {t : Text} {i : Nat} (hi : i ≤ t.length) (offset : Nat) :
    indexOfUnits t offset ≤ i ↔ offset ≤ units (t.take i) := by
  induction t generalizing i offset with
  | nil =>
    obtain rfl := Nat.le_zero.mp hi
    simp
  | cons c t ih =>
    obtain rfl | hoffset := Nat.eq_zero_or_pos offset
    · simp
    · rw [indexOfUnits_cons c t hoffset]
      cases i with
      | zero => simp [Nat.ne_of_gt hoffset]
      | succ i =>
        have hrest := ih (Nat.le_of_succ_le_succ hi) (offset - unitsOf c)
        rw [Nat.succ_le_succ_iff, hrest, List.take_succ_cons, units_cons]
        omega

/-- Past the end of a text there is no place left to find, and the distance from the end is kept. -/
theorem indexOfUnits_of_units_lt {t : Text} {offset : Nat} (h : units t < offset) :
    indexOfUnits t offset = t.length + (offset - units t) := by
  induction t generalizing offset with
  | nil => simp
  | cons c t ih =>
    rw [units_cons] at h
    have hbehind : units t < offset - unitsOf c := by omega
    have hrest := ih hbehind
    rw [indexOfUnits_cons c t (by omega), hrest, List.length_cons, units_cons]
    omega

theorem indexOfUnits_le_length_iff {t : Text} {offset : Nat} :
    indexOfUnits t offset ≤ t.length ↔ offset ≤ units t := by
  rw [indexOfUnits_le_iff le_rfl, List.take_length]

/-- The places of a text whose beginnings have a number of code units at least. -/
def placesFrom (t : Text) (offset : Nat) : Set Nat :=
  {i | i ≤ t.length ∧ offset ≤ units (t.take i)}

theorem isLeast_indexOfUnits {t : Text} {offset : Nat} (h : offset ≤ units t) :
    IsLeast (placesFrom t offset) (indexOfUnits t offset) := by
  have hplace := indexOfUnits_le_length_iff.mpr h
  constructor
  · exact ⟨hplace, (indexOfUnits_le_iff hplace offset).mp le_rfl⟩
  · rintro i ⟨hi, hunits⟩
    exact (indexOfUnits_le_iff hi offset).mpr hunits

theorem indexOfUnits_mono (t : Text) : Monotone (indexOfUnits t) := by
  intro offset later hle
  by_cases hlater : later ≤ units t
  · have hplace := indexOfUnits_le_length_iff.mpr hlater
    have hlong := (indexOfUnits_le_iff hplace later).mp le_rfl
    exact (indexOfUnits_le_iff hplace offset).mpr (hle.trans hlong)
  · have hpast := indexOfUnits_of_units_lt (Nat.lt_of_not_le hlater)
    by_cases hoffset : offset ≤ units t
    · have hplace := indexOfUnits_le_length_iff.mpr hoffset
      omega
    · have hpast' := indexOfUnits_of_units_lt (Nat.lt_of_not_le hoffset)
      omega

end Text

namespace Position

open Text

/-- An offset in code units, however large, leads to the first place that has as many units in
front of it, or as far past the end of the text as the offset lies past its units. Greater offsets
do not lead to smaller places, and the offset of a place leads back to it. -/
theorem first_place_of_units (source : Text) :
    (∀ offset : Nat, ∃ place, ofUnitsAt? source offset = .ok place ∧
      (offset ≤ units source → IsLeast (placesFrom source offset) place) ∧
      (units source < offset → place = source.length + (offset - units source))) ∧
    (∀ offset later place further : Nat, offset ≤ later → ofUnitsAt? source offset = .ok place →
      ofUnitsAt? source later = .ok further → place ≤ further) ∧
    ∀ place ≤ source.length, ofUnitsAt? source (units (source.take place)) = .ok place := by
  refine ⟨?_, ?_, ?_⟩
  · intro offset
    exact ⟨_, ofUnitsAt?_ofNat source offset, isLeast_indexOfUnits, indexOfUnits_of_units_lt⟩
  · intro offset later place further hle hplace hfurther
    obtain rfl := Except.ok.inj ((ofUnitsAt?_ofNat source offset).symm.trans hplace)
    obtain rfl := Except.ok.inj ((ofUnitsAt?_ofNat source later).symm.trans hfurther)
    exact indexOfUnits_mono source hle
  · intro place hplace
    rw [ofUnitsAt?_ofNat, indexOfUnits_units_take hplace]

/-- Past the end of a text the walk passes over all its lines. -/
theorem linesBefore_lines_of_length_lt {t : Text} {offset : Nat} (h : t.length < offset) :
    linesBefore (lines t) offset = newlines t + 1 := by
  induction t generalizing offset with
  | nil =>
    have hpast : offset ≠ 0 := Nat.ne_zero_of_lt h
    simp [lines, linesBefore, newlines, hpast]
  | cons c t ih =>
    obtain ⟨offset, rfl⟩ := Nat.exists_eq_succ_of_ne_zero (Nat.ne_zero_of_lt h)
    have hrest := ih (Nat.lt_of_succ_lt_succ h)
    by_cases hc : c = '\n'
    · subst hc
      rw [linesBefore_feed, hrest]
      simp [newlines]
    · rw [linesBefore_cons hc, hrest]
      simp [newlines, hc]

/-- Walking along the lines and counting line feeds come to the same line for every offset up to the
end of the text, and past it the walk is one line further down. Lines are walked from one, and
counted from zero. -/
theorem walk_follows_count (source : Text) (offset : Nat) :
    ∃ count, lineOffsetAt? source offset = .ok count ∧
      lineAtOffset source offset = count + if offset ≤ source.length then 1 else 2 := by
  refine ⟨_, lineOffsetAt?_ofNat source offset, ?_⟩
  unfold lineAtOffset
  split
  · rename_i hwithin
    rw [linesBefore_lines hwithin]
  · rename_i hpast
    have hlt := Nat.lt_of_not_le hpast
    have hwhole : source.take offset = source := List.take_of_length_le hlt.le
    rw [linesBefore_lines_of_length_lt hlt, lineOffset, hwhole]

end Position

end FragmentLint
