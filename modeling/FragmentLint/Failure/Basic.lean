import FragmentLint.Text.Basic

/-!
# Failures as parsers report them

A parser reports a failure by a message. A parser with failures of its own kind may add the
position at which it failed. Everything else that goes wrong while parsing is reported as
an unstructured failure too, so no fragment is lost.
-/

namespace FragmentLint

structure Failure where
  message : Text
  /-- The offset in characters at which parsing failed. -/
  position : Option Int := none
  /-- Whether the failure is of the parser's own kind. -/
  structured : Bool := false
  deriving DecidableEq, Repr

end FragmentLint
