import FragmentLint.Family

/-!
# Notices

While it works, the library notes what an operator should know: a bridge was started, a
process had to be killed, a parser broke down. A notice is kept as its cause; its weight,
the part of the program it comes from and its text follow from that.
-/

namespace FragmentLint

/-- How much a notice matters. -/
inductive Weight where
  | info
  | warning
  | error
  deriving DecidableEq, Repr

namespace Weight

def name : Weight → Text
  | .info => "INFO"
  | .warning => "WARNING"
  | .error => "ERROR"

end Weight

/-- What an operator should know. -/
inductive Notice where
  /-- A bridge is about to be started. -/
  | starting (executable : Text)
  /-- A process does not exit and is killed. -/
  | stubborn (pid : Nat)
  /-- A session outlived the loop that used it and is killed. -/
  | strayed
  /-- The parser of diagrams could not be asked. -/
  | unavailable (reason : Text)
  /-- A parser broke down. -/
  | parserBroke (parser : Text)
  /-- The failure of a fragment could not be told apart. -/
  | diagnosisBroke (family : Family)
  /-- The outcome of a run. -/
  | summary (findings files : Nat)
  deriving DecidableEq, Repr

namespace Notice

def weight : Notice → Weight
  | .starting _ | .summary .. => .info
  | .stubborn _ | .strayed => .warning
  | .unavailable _ | .parserBroke _ | .diagnosisBroke _ => .error

/-- The part of the program that a notice comes from. -/
def origin : Notice → Text
  | .starting _ | .stubborn _ | .strayed => "fencelint.backends.node"
  | .unavailable _ => "fencelint.backends.mermaid"
  | .parserBroke _ | .diagnosisBroke _ => "fencelint.validation.orchestrator"
  | .summary .. => "fencelint.cli"

def text : Notice → Text
  | .starting executable => "Starting Node.js bridge (" ++ executable ++ ")"
  | .stubborn pid =>
    "Node.js bridge (pid " ++ Text.ofNat pid ++ ") did not exit; killing it"
  | .strayed => "Killing the bridge session of a previous event loop; " ++
      "call NodeRuntime.aclose() in the loop that used it"
  | .unavailable reason => "Mermaid backend failure: " ++ reason
  | .parserBroke parser => "Parser adapter " ++ parser ++ " raised"
  | .diagnosisBroke family => "Translating " ++ family.name ++ " failure raised"
  | .summary findings files =>
    Text.ofNat findings ++ " error(s) in " ++ Text.ofNat files ++ " file(s)"

def isAlarm (n : Notice) : Bool :=
  n.weight ≠ .info

end Notice

end FragmentLint
