import FragmentLint.ValueFault

/-!
# Modes

Fragments are checked in one of two modes: in basic mode without a parser, in full mode
with the parser of their family.
-/

namespace FragmentLint

/-- How fragments are checked. -/
inductive Mode where
  /-- Without a parser. -/
  | basic
  /-- With the parser of their family. -/
  | full
  deriving DecidableEq, Repr

namespace Mode

def all : List Mode := [.basic, .full]

def name : Mode → Text
  | .basic => "basic"
  | .full => "full"

def ofName? (t : Text) : Except ValueFault Mode :=
  match all.find? (·.name = t) with
  | some mode => .ok mode
  | none => .error (.unknownMode t)

@[simp] theorem ofName?_name (m : Mode) : ofName? m.name = .ok m := by
  cases m <;> rfl

end Mode

end FragmentLint
