import FragmentLint.Number.Shortest

/-!
# Numbers

A number is an integer of any size or a floating-point number. The two are different
values with different texts, even where they are equal.
-/

namespace FragmentLint

/-- An integer or a floating-point number. -/
inductive Number where
  | int (n : Int)
  | real (x : Binary64)
  deriving DecidableEq, Repr, Inhabited

namespace Number

def isZero : Number → Bool
  | .int n => n == 0
  | .real x => x.isZero

def isNonpositive : Number → Bool
  | .int n => n ≤ 0
  | .real x => x.isNonpositive

def equalsInt : Number → Int → Bool
  | .int m, n => m == n
  | .real x, n => x.equalsInt n

theorem equalsInt_unique {x : Number} {m n : Int} (hm : x.equalsInt m = true)
    (hn : x.equalsInt n = true) : m = n := by
  cases x with
  | int k => exact (eq_of_beq hm).symm.trans (eq_of_beq hn)
  | real x => exact Binary64.equalsInt_unique hm hn

def text : Number → Text
  | .int n => Text.ofInt n
  | .real x => x.text

end Number

end FragmentLint
