import FragmentLint.Text.Basic
import FragmentLint.Text.Folding

/-!
# Letters without regard to case

Two characters are the same letter, case aside, if they fold onto the same character. Most
patterns that ignore case are written in the basic alphabet. There a small letter also
stands for its capital, and three of them stand for letters outside that fold onto them:
`s` for the long s, `k` for the Kelvin sign, and `i` for the dotted capital and the dotless
small i.
-/

namespace FragmentLint.Text

def fold (c : Char) : Char :=
  if c.toNat < 0x80 then c.toLower else Char.ofNat (foldedPoint c.toNat)

/-- The letters outside the basic alphabet that fold onto letters of it: the dotted capital and
the dotless small i, the long s and the Kelvin sign. -/
def foldingIn : List Nat := [0x130, 0x131, 0x17f, 0x212a]

/-- Whether a run folds onto characters outside the basic alphabet, or is one of the letters that
do not. -/
def CaseRun.staysOut (run : CaseRun) : Bool :=
  (run.first = run.last && run.first ∈ foldingIn) ||
    (0x80 ≤ run.first + run.shift && (run.last + run.shift < 0xd800 ||
      (0xdfff < run.first + run.shift && run.last + run.shift < 0x110000)))

theorem staysOut_of_mem_caseRuns {run : CaseRun} (h : run ∈ caseRuns) : run.staysOut = true := by
  have hall : (caseRuns.all CaseRun.staysOut) = true := by decide +kernel
  exact List.all_eq_true.mp hall run h

/-- A character outside the basic alphabet folds onto one outside, the four letters apart. -/
theorem mem_foldingIn_of_fold {c : Char} (hc : 0x80 ≤ c.toNat) (h : (fold c).toNat < 0x80) :
    c.toNat ∈ foldingIn := by
  rw [fold, if_neg (Nat.not_lt.mpr hc), foldedPoint] at h
  cases hrun : caseRuns.find? (·.covers c.toNat) with
  | none =>
    rw [hrun, Char.ofNat_toNat] at h
    omega
  | some run =>
    have hcovers := List.find?_some hrun
    have hout := staysOut_of_mem_caseRuns (List.mem_of_find?_eq_some hrun)
    simp only [CaseRun.covers, Bool.and_eq_true, decide_eq_true_eq] at hcovers
    obtain ⟨⟨hfirst, hlast⟩, -⟩ := hcovers
    simp only [CaseRun.staysOut, Bool.or_eq_true, Bool.and_eq_true, decide_eq_true_eq] at hout
    obtain ⟨hone, hmem⟩ | ⟨hlow, hvalid⟩ := hout
    · rwa [Nat.le_antisymm hlast (hone ▸ hfirst), ← hone]
    · -- The folded point is that of a character, and lies outside as well.
      have hpoint : (c.toNat + run.shift).toNat.isValidChar := by
        simp only [Nat.isValidChar]
        omega
      have htoNat : (Char.ofNat (c.toNat + run.shift).toNat).toNat =
          (c.toNat + run.shift).toNat := by
        rw [Char.ofNat, dif_pos hpoint]
        rfl
      rw [hrun, htoNat] at h
      omega

/-- The rest of a text behind a given beginning, case aside. -/
def afterFolded? : Text → Text → Option Text
  | [], t => some t
  | _ :: _, [] => none
  | p :: ps, c :: t => if fold p = fold c then afterFolded? ps t else none

theorem length_of_afterFolded? {p t rest : Text} (h : afterFolded? p t = some rest) :
    t.length = p.length + rest.length := by
  induction p generalizing t with
  | nil =>
    cases h
    simp
  | cons a p ih =>
    cases t with
    | nil => simp [afterFolded?] at h
    | cons c t =>
      by_cases hc : fold a = fold c
      · simp only [afterFolded?, hc, if_true] at h
        have := ih h
        simp only [List.length_cons]
        omega
      · simp [afterFolded?, hc] at h

/-- A text with capitals of the basic alphabet, and the Kelvin sign, made small. This is
enough to compare a text with names of the basic alphabet. -/
def lower (t : Text) : Text :=
  t.map fun c => if c.toNat = 0x212a then 'k' else c.toLower

end FragmentLint.Text
