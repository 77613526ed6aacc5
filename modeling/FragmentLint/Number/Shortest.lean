import FragmentLint.Number.Binary64
import FragmentLint.Text.Basic

/-!
# Shortest decimal text

A floating-point number is written with the fewest decimal digits that read back as the
same number, and of those decimals the nearest. Around the number lies the interval of
reals that round to it, ends included where its last binary digit is zero. On the grid of
decimals with a given number of digits only the two neighbours of the number need a test.
-/

namespace FragmentLint.Binary64

structure Ratio where
  num : Nat
  den : Nat

def Ratio.binary (n : Nat) (q : Int) : Ratio :=
  if 0 ≤ q then ⟨n * twoTo q.toNat, 1⟩ else ⟨n, twoTo (-q).toNat⟩

def Ratio.decimal (n : Nat) (g : Int) : Ratio :=
  if 0 ≤ g then ⟨n * tenTo g.toNat, 1⟩ else ⟨n, tenTo (-g).toNat⟩

/-- Whether one rational number is less than another. -/
def Ratio.lt (a b : Ratio) : Bool :=
  a.num * b.den < b.num * a.den

/-- Whether one rational number is at most another. -/
def Ratio.le (a b : Ratio) : Bool :=
  a.num * b.den ≤ b.num * a.den

def Ratio.add (a b : Ratio) : Ratio :=
  ⟨a.num * b.den + b.num * a.den, a.den * b.den⟩

/-- The whole part of a rational number divided by `10 ^ g`. -/
def Ratio.floorAt (a : Ratio) (g : Int) : Nat :=
  if 0 ≤ g then a.num / (a.den * tenTo g.toNat) else a.num * tenTo (-g).toNat / a.den

/-- How many places a number below one has to be moved up to reach one. -/
def placesBelow (a : Ratio) : Nat → Nat → Nat
  | 0, moved => moved
  | fuel + 1, moved =>
    if a.den ≤ a.num * tenTo moved then moved else placesBelow a fuel (moved + 1)

/-- The power of ten of a number's first decimal digit. -/
def leadingPower (a : Ratio) : Int :=
  if a.den ≤ a.num then ((Nat.toDigits 10 (a.num / a.den)).length : Int) - 1
  else -(placesBelow a 400 1 : Int)

/-- The shortest decimal with at least `k` digits, as its digits and the power of ten of the
last one. Seventeen digits always suffice. -/
def shortestFrom (value low high : Ratio) (closed : Bool) (p : Int) : Nat → Nat → Nat × Int
  | 0, k => (value.floorAt (p - k + 1), p - k + 1)
  | fuel + 1, k =>
    let g := p - k + 1
    let below := value.floorAt g
    let above := below + 1
    let lowFits := if closed then low.le (.decimal below g) else low.lt (.decimal below g)
    let highFits :=
      if closed then Ratio.le (.decimal above g) high else Ratio.lt (.decimal above g) high
    if lowFits && highFits then
      let sum := (Ratio.decimal below g).add (.decimal above g)
      let middle : Ratio := ⟨sum.num, 2 * sum.den⟩
      if value.lt middle then (below, g)
      else if middle.lt value then (above, g)
      else if below % 2 = 0 then (below, g) else (above, g)
    else if lowFits then (below, g)
    else if highFits then (above, g)
    else shortestFrom value low high closed p fuel (k + 1)

/-- The shortest decimal that reads back as `m * 2 ^ q`. -/
def shortest (m : Nat) (q : Int) : Nat × Int :=
  let value := Ratio.binary m q
  let gapBelow := if m = twoTo 52 && minExponent < q then 1 else 2
  let low := Ratio.binary (4 * m - gapBelow) (q - 2)
  let high := Ratio.binary (4 * m + 2) (q - 2)
  shortestFrom value low high (m % 2 == 0) (leadingPower value) 17 1

def withoutTrailingZeros (digits : Text) : Text :=
  (digits.reverse.dropWhile (· == '0')).reverse

/-- The text of `digits` with the decimal point behind the first `point` of them. Numbers
from `1e-4` up to below `1e16` are written out, others with an exponent of at least two
digits. A whole number that is written out ends in `.0`. -/
def layOut (digits : Text) (point : Int) : Text :=
  if -4 < point && point ≤ 16 then
    if point ≤ 0 then "0." ++ List.replicate (-point).toNat '0' ++ digits
    else
      let whole := digits.take point.toNat
      let rest := digits.drop point.toNat
      whole ++ List.replicate (point.toNat - whole.length) '0' ++ '.' ::
        (if rest = [] then ['0'] else rest)
  else
    let exponent := point - 1
    let size := Text.ofNat exponent.natAbs
    digits.take 1 ++ (if digits.length = 1 then [] else '.' :: digits.drop 1) ++
      'e' :: (if exponent < 0 then '-' else '+') :: (if size.length < 2 then '0' :: size else size)

def text : Binary64 → Text
  | .nan => "nan"
  | .infinite negative => if negative then "-inf" else "inf"
  | .finite negative m q =>
    let unsigned : Text :=
      if m = 0 then "0.0"
      else
        let (n, g) := shortest m q
        let digits := Text.ofNat n
        layOut (withoutTrailingZeros digits) (digits.length + g)
    if negative then '-' :: unsigned else unsigned

end FragmentLint.Binary64
