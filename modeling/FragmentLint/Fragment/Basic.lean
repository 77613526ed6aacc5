import FragmentLint.Line
import FragmentLint.Text.Blank

/-!
# Fragments

A fragment is a piece of code that a document embeds, with the line on which its carrier
starts: the fence line or the opening tag. Trimming takes blanks off the code and leaves
the line as it is.
-/

namespace FragmentLint

structure Fragment where
  /-- The code as the document holds it. -/
  code : Text
  /-- The line on which the carrier starts. -/
  start : Line
  deriving DecidableEq, Repr

namespace Fragment

/-- The fragment without the blanks around its code. -/
def trimmed (f : Fragment) : Fragment :=
  { f with code := Text.trim f.code }

@[simp] theorem start_trimmed (f : Fragment) : f.trimmed.start = f.start := rfl

/-- The fragment of a given code at a line from outside. -/
def at? (code : Text) (line : Int) : Except ValueFault Fragment :=
  match Line.ofInt? line with
  | some start => .ok ⟨code, start⟩
  | none => .error (.fragmentLine line)

end Fragment

end FragmentLint
