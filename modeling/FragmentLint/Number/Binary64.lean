/-!
# Binary floating-point numbers

A 64-bit floating-point number is kept as its exact value: a sign, a natural number
below 2^53 and a power of two, or an infinity, or no number at all. A decimal number is
read as the nearest such value; of two equally near ones, the even one.
-/

namespace FragmentLint

/-- A 64-bit floating-point number: plus or minus `m * 2 ^ q`, an infinity, or no number. -/
inductive Binary64 where
  | finite (negative : Bool) (m : Nat) (q : Int)
  | infinite (negative : Bool)
  | nan
  deriving DecidableEq, Repr, Inhabited

namespace Binary64

def twoTo (n : Nat) : Nat :=
  Nat.pow 2 n

def tenTo (n : Nat) : Nat :=
  Nat.pow 10 n

def minExponent : Int := -1074

def maxExponent : Int := 971

/-- A quotient rounded to the nearest natural number, a half to the even neighbour. -/
def roundQuotient (num den : Nat) : Nat :=
  let floor := num / den
  let twice := 2 * (num % den)
  if twice < den then floor
  else if den < twice then floor + 1
  else if floor % 2 = 0 then floor else floor + 1

/-- A quotient divided by a power of two, again as numerator and denominator. -/
def scaled (num den : Nat) (q : Int) : Nat × Nat :=
  if 0 ≤ q then (num, den * twoTo q.toNat) else (num * twoTo (-q).toNat, den)

/-- The power of two at which a positive quotient has 53 binary digits, or the least one. -/
def exponentOf (num den : Nat) : Int :=
  let q := max ((num.log2 : Int) - den.log2 - 53) minExponent
  let parts := scaled num den q
  if twoTo 53 ≤ parts.1 / parts.2 then q + 1 else q

def ofQuotient (negative : Bool) (num den : Nat) : Binary64 :=
  if num = 0 then .finite negative 0 minExponent
  else
    let q := exponentOf num den
    let parts := scaled num den q
    let m := roundQuotient parts.1 parts.2
    let rounded : Nat × Int := if m = twoTo 53 then (twoTo 52, q + 1) else (m, q)
    if maxExponent < rounded.2 then .infinite negative else .finite negative rounded.1 rounded.2

/-- The value nearest to `digits * 10 ^ exponent`. Decimal numbers far beyond the greatest
or below the least value are settled by their size alone. -/
def ofDecimal (negative : Bool) (digits : Nat) (exponent : Int) : Binary64 :=
  if digits = 0 then .finite negative 0 minExponent
  else
    let magnitude := ((Nat.toDigits 10 digits).length : Int) + exponent
    if 310 < magnitude then .infinite negative
    else if magnitude < -330 then .finite negative 0 minExponent
    else if 0 ≤ exponent then ofQuotient negative (digits * tenTo exponent.toNat) 1
    else ofQuotient negative digits (tenTo (-exponent).toNat)

/-- Whether a value is zero, of either sign. -/
def isZero : Binary64 → Bool
  | .finite _ m _ => m == 0
  | _ => false

/-- Whether a value is at most zero. No number is not. -/
def isNonpositive : Binary64 → Bool
  | .finite negative m _ => negative || m == 0
  | .infinite negative => negative
  | .nan => false

def equalsInt : Binary64 → Int → Bool
  | .finite negative m q, n =>
    let signed : Int := if negative then -(m : Int) else m
    if 0 ≤ q then signed * twoTo q.toNat == n else signed == n * twoTo (-q).toNat
  | _, _ => false

theorem equalsInt_unique {x : Binary64} {m n : Int} (hm : x.equalsInt m = true)
    (hn : x.equalsInt n = true) : m = n := by
  cases x with
  | finite negative mantissa q =>
    simp only [equalsInt] at hm hn
    by_cases hq : 0 ≤ q
    · rw [if_pos hq] at hm hn
      exact (eq_of_beq hm).symm.trans (eq_of_beq hn)
    · rw [if_neg hq] at hm hn
      have hpos : (twoTo (-q).toNat : Int) ≠ 0 := by
        have : 0 < twoTo (-q).toNat := Nat.two_pow_pos _
        omega
      exact Int.eq_of_mul_eq_mul_right hpos ((eq_of_beq hm).symm.trans (eq_of_beq hn))
  | _ => simp [equalsInt] at hm

end Binary64

end FragmentLint
