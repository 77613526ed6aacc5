import FragmentLint.Number.Binary64
import FragmentLint.Text.Blank
import FragmentLint.Text.Digit
import FragmentLint.Text.Letter

/-!
# Reading floating-point numbers

The text of a floating-point number may stand between blanks. It is a sign or none, and
then digits with or without a point and an exponent, or a word for infinity or for no
number. Digits may be of any script, and two digits may be parted by an underscore.
-/

namespace FragmentLint.Binary64

open Text

/-- Whether a blank may stand around a number. The four information separators may not. -/
def isMargin (c : Char) : Bool :=
  isBlank c && !(0x1c ≤ c.toNat && c.toNat ≤ 0x1f)

def withoutMargins (t : Text) : Text :=
  ((t.dropWhile isMargin).reverse.dropWhile isMargin).reverse

/-- A text with the digits of all scripts made those of the basic alphabet. -/
def basicDigits (t : Text) : Text :=
  t.map fun c => match digitValue? c with
    | some v => Char.ofNat (48 + v)
    | none => c

/-- A text without its underscores, if each of them stands between two digits. -/
def withoutUnderscores? : Option Char → Text → Option Text
  | _, [] => some []
  | before, c :: t =>
    if c = '_' then
      if before.any Char.isDigit && t.head?.any Char.isDigit then
        withoutUnderscores? (some c) t
      else none
    else (withoutUnderscores? (some c) t).map (c :: ·)

/-- A sign taken off a text; without one, the sign is plus. -/
def takeSign : Text → Bool × Text
  | '-' :: t => (true, t)
  | '+' :: t => (false, t)
  | t => (false, t)

/-- The exponent at the end of a number, zero if the text has ended. -/
def exponent? : Text → Option Int
  | [] => some 0
  | c :: t =>
    if c = 'e' || c = 'E' then
      let (negative, digits) := takeSign t
      if digits ≠ [] && digits.all Char.isDigit then
        some (if negative then -(digitsValue digits : Int) else digitsValue digits)
      else none
    else none

/-- An unsigned number in digits: some before or behind the point, and an exponent. -/
def unsigned? (negative : Bool) (t : Text) : Option Binary64 :=
  let whole := t.takeWhile Char.isDigit
  let rest := t.dropWhile Char.isDigit
  let (fraction, rest) := match rest with
    | '.' :: r => (r.takeWhile Char.isDigit, r.dropWhile Char.isDigit)
    | r => ([], r)
  if whole = [] && fraction = [] then none
  else (exponent? rest).map fun e =>
    ofDecimal negative (digitsValue (whole ++ fraction)) (e - fraction.length)

/-- The number that a text denotes, if it denotes one. -/
def ofText? (t : Text) : Option Binary64 := do
  let t ← withoutUnderscores? none (basicDigits (withoutMargins t))
  let (negative, t) := takeSign t
  let word := t.map Char.toLower
  if word = "inf" || word = "infinity" then some (.infinite negative)
  else if word = "nan" then some .nan
  else unsigned? negative t

end FragmentLint.Binary64
