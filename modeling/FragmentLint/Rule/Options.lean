import FragmentLint.ConfigFault
import FragmentLint.Mode

/-!
# Options of rules

A rule takes three options, all of them off at first. They arrive as the members of a
mapping, in which the second has two spellings; of members that set the same option the
last one counts. Members of other names are left to others, but a known one must be true
or false: the first that is neither is the fault.
-/

namespace FragmentLint

structure Options where
  /-- Diagrams are checked without their parser. -/
  basic : Bool := false
  /-- Formulas are parsed as displays. -/
  displayMode : Bool := false
  /-- Formulas may not use what their parser merely tolerates. -/
  strict : Bool := false
  deriving DecidableEq, Repr, Inhabited

namespace Options

def mode (o : Options) : Mode :=
  if o.basic then .basic else .full

/-- The option of a given name, as the way in which it is set. -/
def setter? (name : Text) : Option (Options → Bool → Options) :=
  if name = "basic" then some fun o b => { o with basic := b }
  else if name = "displayMode" ∨ name = "display_mode" then
    some fun o b => { o with displayMode := b }
  else if name = "strict" then some fun o b => { o with strict := b }
  else none

def set (o : Options) (name : Text) (value : Json) : Except ConfigFault Options :=
  match setter? name, value with
  | none, _ => .ok o
  | some put, .bool b => .ok (put o b)
  | some _, value => .error (.option name value)

/-- The options that the members of a mapping ask for. -/
def ofMembers (members : Json.Members) : Except ConfigFault Options :=
  members.foldlM (fun o (name, value) => o.set name value) {}

@[simp] theorem ofMembers_nil : ofMembers [] = .ok {} := rfl

end Options

end FragmentLint
