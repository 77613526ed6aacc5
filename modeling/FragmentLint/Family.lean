import FragmentLint.ValueFault

/-!
# Content families

The library checks two kinds of content that a document embeds: Mermaid diagrams and
mathematical formulas.
-/

namespace FragmentLint

/-- A kind of embedded content. -/
inductive Family where
  | mermaid
  | math
  deriving DecidableEq, Repr

namespace Family

/-- All families, in the order in which they are checked. -/
def all : List Family := [.mermaid, .math]

def name : Family → Text
  | .mermaid => "mermaid"
  | .math => "math"

def ofName? (t : Text) : Except ValueFault Family :=
  match all.find? (·.name = t) with
  | some family => .ok family
  | none => .error (.unknownFamily t)

@[simp] theorem ofName?_name (f : Family) : ofName? f.name = .ok f := by
  cases f <;> rfl

end Family

end FragmentLint
