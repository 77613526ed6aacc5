import FragmentLint.Number.Basic

/-!
# JSON values

A JSON value keeps the order of an object's members, because the order shows in what is
written. An object never holds two members of one name if it is built with `put`: a
second value for a name takes the place of the first.
-/

namespace FragmentLint

/-- A JSON value. -/
inductive Json where
  | null
  | bool (b : Bool)
  | num (x : Number)
  | str (t : Text)
  | arr (items : List Json)
  | obj (members : List (Text × Json))
  deriving Inhabited

namespace Json

abbrev Members := List (Text × Json)

/-- The value of the first member with a given name. -/
def Members.get? : Members → Text → Option Json
  | [], _ => none
  | (name, value) :: rest, key => if name = key then some value else get? rest key

/-- The members with one value set: in the place of the old one, else at the end. -/
def Members.put : Members → Text → Json → Members
  | [], key, value => [(key, value)]
  | (name, old) :: rest, key, value =>
    if name = key then (name, value) :: rest else (name, old) :: put rest key value

@[simp] theorem Members.get?_put_self (ms : Members) (key : Text) (value : Json) :
    (ms.put key value).get? key = some value := by
  induction ms with
  | nil => simp [put, get?]
  | cons m ms ih =>
    obtain ⟨name, old⟩ := m
    by_cases h : name = key <;> simp [put, get?, h, ih]

theorem Members.get?_put_of_ne (ms : Members) {key other : Text} (value : Json)
    (hne : key ≠ other) : (ms.put key value).get? other = ms.get? other := by
  induction ms with
  | nil => simp [put, get?, hne]
  | cons m ms ih =>
    obtain ⟨name, old⟩ := m
    by_cases h : name = key
    · subst h
      simp [put, get?, hne]
    · rw [put, if_neg h]
      by_cases ho : name = other <;> simp [get?, ho, ih]

/-- Whether a value counts as true. Null, false, zero and whatever is empty do not. -/
def isTruthy : Json → Bool
  | .null => false
  | .bool b => b
  | .num x => !x.isZero
  | .str t => !t.isEmpty
  | .arr items => !items.isEmpty
  | .obj members => !members.isEmpty

/-- Whether a value is equal to an integer. The truth values count as one and zero. -/
def equalsInt : Json → Int → Bool
  | .num x, n => x.equalsInt n
  | .bool b, n => (if b then 1 else 0) == n
  | _, _ => false

/-- A value is equal to one integer at most. -/
theorem equalsInt_unique {v : Json} {m n : Int} (hm : v.equalsInt m = true)
    (hn : v.equalsInt n = true) : m = n := by
  cases v with
  | num x => exact Number.equalsInt_unique hm hn
  | bool b => exact (eq_of_beq hm).symm.trans (eq_of_beq hn)
  | _ => simp [equalsInt] at hm

/-- The integer that a value is. The truth values count as one and zero. -/
def asInt? : Json → Option Int
  | .num (.int n) => some n
  | .bool b => some (if b then 1 else 0)
  | _ => none

end Json

end FragmentLint
