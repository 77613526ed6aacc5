import FragmentLint.ValueFault

/-!
# Line numbers

Lines of a document count from one. A line number carries the proof that it is at least
one, so everything that the library reports points into the document.
-/

namespace FragmentLint

structure Line where
  /-- The number itself. -/
  number : Nat
  positive : 1 ≤ number := by omega
  deriving DecidableEq, Repr

namespace Line

def first : Line := ⟨1, by omega⟩

def down (l : Line) (n : Nat) : Line :=
  ⟨l.number + n, Nat.le_trans l.positive (Nat.le_add_right ..)⟩

@[simp] theorem number_down (l : Line) (n : Nat) : (l.down n).number = l.number + n := rfl

@[simp] theorem down_zero (l : Line) : l.down 0 = l := rfl

def ofInt? (n : Int) : Option Line :=
  if h : 1 ≤ n then some ⟨n.toNat, by omega⟩ else none

@[simp] theorem ofInt?_number (l : Line) : ofInt? l.number = some l := by
  have := l.positive
  simp [ofInt?]
  omega

end Line

end FragmentLint
