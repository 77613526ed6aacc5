import FragmentLint.Text.Basic

/-!
# Code units

Some programs count a text in 16-bit code units: a character beyond the first 65536 code
points takes a pair of units, every other character one. The module writes a character
as its units, counts a text in units and turns an offset in units into an offset in
characters. The `units` of a text's beginnings are the measure against which that
conversion is defined: it finds the first beginning that is long enough.

Half of a pair may stand alone where units are escaped one by one. No character stands for it, so
it is kept as a private one. Others count a text in bytes: a character takes one to four.
-/

namespace FragmentLint.Text

def unitsOf (c : Char) : Nat :=
  if 0xffff < c.toNat then 2 else 1

def units : Text → Nat
  | [] => 0
  | c :: t => unitsOf c + units t

@[simp] theorem units_nil : units [] = 0 := rfl

@[simp] theorem units_cons (c : Char) (t : Text) : units (c :: t) = unitsOf c + units t :=
  rfl

theorem units_append (t u : Text) : units (t ++ u) = units t + units u := by
  induction t with
  | nil => simp
  | cons c t ih => simp [ih, Nat.add_assoc]

/-- The index of the first character at or behind an offset in code units. An offset past
the end keeps its distance from the end. -/
def indexOfUnits : Text → Nat → Nat
  | _, 0 => 0
  | [], offset => offset
  | c :: t, offset => indexOfUnits t (offset - unitsOf c) + 1

/-- The pair of units that stands for a character beyond the first 65536 code points. -/
def surrogates (c : Char) : Nat × Nat :=
  let n := c.toNat - 0x10000
  (0xd800 + n / 0x400, 0xdc00 + n % 0x400)

def ofSurrogates (high low : Nat) : Char :=
  Char.ofNat (0x10000 + (high - 0xd800) * 0x400 + (low - 0xdc00))

/-- A unit that is half of a pair and stands alone. -/
def loneHalf (unit : Nat) : Char :=
  Char.ofNat (0xf0000 + unit)

def isLoneHalf (c : Char) : Bool :=
  0xfd800 ≤ c.toNat && c.toNat < 0xfe000

/-- The unit that is kept as such a character. -/
def loneUnit (c : Char) : Nat :=
  c.toNat - 0xf0000

def bytes : Text → Nat
  | [] => 0
  | c :: t => c.utf8Size + bytes t

theorem bytes_replicate (n : Nat) (c : Char) :
    bytes (List.replicate n c) = n * c.utf8Size := by
  induction n with
  | zero => simp [bytes]
  | succ n ih => rw [List.replicate_succ, bytes, ih, Nat.succ_mul, Nat.add_comm]

theorem bytes_append (t u : Text) : bytes (t ++ u) = bytes t + bytes u := by
  induction t with
  | nil => simp [bytes]
  | cons c t ih => rw [List.cons_append, bytes, bytes, ih, Nat.add_assoc]

def hex : Nat → Nat → Text
  | 0, _ => []
  | width + 1, n => hex width (n / 16) ++ [Nat.digitChar (n % 16)]

def hexValue? (c : Char) : Option Nat :=
  if c.isDigit then some (c.toNat - 48)
  else if 'a' ≤ c ∧ c ≤ 'f' then some (c.toNat - 87)
  else if 'A' ≤ c ∧ c ≤ 'F' then some (c.toNat - 55)
  else none

theorem hexValue?_digitChar {d : Nat} (h : d < 16) : hexValue? (Nat.digitChar d) = some d := by
  have all : ∀ d, d < 16 → hexValue? (Nat.digitChar d) = some d := by decide
  exact all d h

end FragmentLint.Text
