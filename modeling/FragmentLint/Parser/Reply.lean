import FragmentLint.Bridge.Fault

/-!
# Answers of parsers

A parser answers with an object. It accepts the code if the object says so; otherwise the
object holds a message. A code that was not accepted was either rejected by its parser or
met a fault on the way.
-/

namespace FragmentLint

/-- Why a piece of code was not accepted. -/
inductive ParseFault where
  /-- The parser rejected the code, perhaps at an offset in characters. -/
  | rejected (message : Text) (position : Option Nat)
  /-- The parser could not be asked, or its answer makes no sense. -/
  | fault (fault : Fault)
  deriving Inhabited

namespace Reply

def accepts (reply : Json.Members) : Bool :=
  ((reply.get? "ok").map Json.isTruthy).getD false

/-- The message of an answer, or another one where it has none. -/
def message (reply : Json.Members) (otherwise : Text) : Text :=
  match reply.get? "message" with
  | some value => if value.isTruthy then value.shown else otherwise
  | none => otherwise

end Reply

end FragmentLint
