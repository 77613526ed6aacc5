import FragmentLint.ConfigFault
import FragmentLint.FaultKind
import FragmentLint.Json.Reader
import FragmentLint.Validation.Verdict

/-!
# Faults of the bridges

A bridge may be missing, break while it loads, end in the midst of its work or answer out
of turn. A fault that keeps a bridge from working at all makes its parser unavailable; any
other one spoils a single request. Faults that are no fault of a bridge are passed on: a
text that goes beyond what can be read, or a defect of what starts the sessions.
-/

namespace FragmentLint

/-- Why a session did not start. -/
inductive StartFault where
  /-- The process ended before it was ready. -/
  | ended (code : Int) (detail : Text)
  /-- The process was not ready in time. -/
  | timedOut
  deriving DecidableEq, Repr

/-- What went wrong with a bridge. -/
inductive BridgeFault where
  /-- The program cannot be run. -/
  | cannotRun (executable reason : Text)
  | invalidSettings (fault : ConfigFault)
  /-- The session did not become ready. -/
  | notStarted (fault : StartFault)
  /-- The session reported that it cannot work. -/
  | notLoaded (message : Text)
  /-- The process of a single request ended with a failure and without an answer. -/
  | crashed (code : Int) (detail : Text)
  /-- The process ended without an answer. -/
  | ended (code : Int) (detail : Text)
  /-- The process had ended before the request. -/
  | gone (code : Int)
  /-- The process does not read any more. -/
  | closedInput (reason : Text)
  /-- The answer belongs to another request. -/
  | outOfTurn (found : Json) (expected : Nat)
  /-- The parser that works side by side was asked to answer at once. -/
  | notAtOnce
  /-- Any other fault, as it was reported. -/
  | reported (unavailable : Bool) (message : Text)
  deriving Inhabited

namespace StartFault

/-- The text of an end with an exit code and what is known about it. -/
def endText (code : Int) (detail : Text) : Text :=
  "Node.js bridge exited with code " ++ Text.ofInt code ++ ": " ++ detail

def message : StartFault → Text
  | .ended code detail => endText code detail
  | .timedOut => "timed out"

end StartFault

namespace BridgeFault

/-- Whether a fault keeps the bridge from working at all. -/
def isUnavailable : BridgeFault → Bool
  | .cannotRun .. | .invalidSettings _ | .notStarted _ | .notLoaded _ | .crashed .. => true
  | .reported unavailable _ => unavailable
  | _ => false

/-- The kind of a fault, as reports of defects name it. -/
def kind (f : BridgeFault) : Text :=
  if f.isUnavailable then FaultKind.unavailable.name else FaultKind.bridge.name

def message : BridgeFault → Text
  | .cannotRun executable reason =>
    "Cannot run Node.js executable " ++ Text.quoted executable ++ ": " ++ reason
  | .invalidSettings fault => "Invalid Node.js settings: " ++ fault.message
  | .notStarted fault => "Node.js bridge did not start: " ++ fault.message
  | .notLoaded message => "Node.js bridge failed to load: " ++ message
  | .crashed code detail | .ended code detail => StartFault.endText code detail
  | .gone code => "Node.js bridge exited with code " ++ Text.ofInt code
  | .closedInput reason => "Node.js bridge closed its input: " ++ reason
  | .outOfTurn found expected =>
    "Node.js bridge replied to " ++ found.literal ++ ", expected " ++ Text.ofNat expected
  | .notAtOnce => "Mermaid backend is asynchronous; use acheck()"
  | .reported _ message => message

end BridgeFault

/-- The fault of a text that goes beyond what can be read as JSON. That a text is no JSON is
no fault. -/
def Json.ReadFault.valueFault? : Json.ReadFault → Option ValueFault
  | .malformed => none
  | .tooManyDigits count => some (.tooManyDigits count)
  | .tooDeep opensObject => some (.tooDeep opensObject)

/-- What a text says as a message: the members of an object, or a fault of reading. Everything
else is passed over. -/
def Json.said? [Host] (t : Text) : Option (Except ValueFault Json.Members) :=
  match Json.read t with
  | .ok (.obj members) => some (.ok members)
  | .ok _ => none
  | .error fault => fault.valueFault?.map .error

/-- What can go wrong while fragments are checked. -/
inductive Fault where
  | bridge (fault : BridgeFault)
  | config (fault : ConfigFault)
  | value (fault : ValueFault)
  | defect (defect : Defect)
  deriving Inhabited

namespace Fault

def asDefect : Fault → Defect
  | .bridge f => ⟨f.kind, f.message⟩
  | .config f => ⟨FaultKind.config.name, f.message⟩
  | .value f => ⟨f.kind, f.message⟩
  | .defect d => d

end Fault

end FragmentLint
