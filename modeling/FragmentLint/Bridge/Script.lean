import FragmentLint.Bridge.Fault
import FragmentLint.Bridge.Settings
import FragmentLint.Json.Printer

/-!
# Single requests

The parser of formulas is run afresh for each request: the request is the input of the
process, and the last line of its output that is a JSON object is the answer. Here a line
ends at any of the characters that end lines, not only at line feeds.
-/

namespace FragmentLint

structure ScriptCall where
  executable : Text
  /-- The directory to run in. -/
  packageDir : Option Text
  /-- The input of the process. -/
  input : Text
  deriving DecidableEq, Repr

/-- How a run of a script ended. -/
inductive ScriptEnd where
  /-- The program could not be run. -/
  | refused (reason : Text)
  /-- The process ended with an exit code. -/
  | finished (output errors : Text) (code : Int)
  /-- The process ended, and not all that it wrote is UTF-8. The output is given with replacement
  characters. -/
  | undecodable (output : Text) (fault : Text.Utf8Fault)
  deriving DecidableEq, Repr

namespace Script

def endsLine (c : Char) : Bool :=
  c.toNat ∈ [0x0a, 0x0b, 0x0c, 0x0d, 0x1c, 0x1d, 0x1e, 0x85, 0x2028, 0x2029]

/-- The lines of a text that ends with a line end, or with its last line. A return in front
of a line feed ends the line together with it. -/
def splitLines : Text → List Text
  | [] => []
  | '\r' :: '\n' :: t => [] :: splitLines t
  | c :: t =>
    if endsLine c then [] :: splitLines t
    else match splitLines t with
      | [] => [[c]]
      | l :: ls => (c :: l) :: ls

/-- The last of the lines that is a JSON object, given the lines from the last to the first.
Whatever else stands there is passed over, unless it goes beyond what can be read. -/
def answer? [Host] : List Text → Except ValueFault (Option Json.Members)
  | [] => .ok none
  | line :: lines =>
    match Json.said? line with
    | some (.ok members) => .ok (some members)
    | some (.error fault) => .error fault
    | none => answer? lines

/-- What the errors of a process say about its end: their last line. -/
def detail (errors : Text) : Text :=
  ((splitLines (Text.trim errors)).getLast?).getD "no output"

def call (payload : Json.Members) (settings : Settings) : ScriptCall :=
  ⟨settings.executable, settings.packageDir, (Json.obj payload).render .request⟩

def reply [Host] (executable : Text) : ScriptEnd → Except Fault Json.Members
  | .refused reason => .error (.bridge (.cannotRun executable reason))
  | .undecodable _ fault => .error (.value (.undecodable fault))
  | .finished output errors code =>
    match answer? (splitLines output).reverse with
    | .error fault => .error (.value fault)
    | .ok (some members) => .ok members
    | .ok none =>
      let fault : BridgeFault :=
        if code = 0 then .ended code (detail errors) else .crashed code (detail errors)
      .error (.bridge fault)

end Script

end FragmentLint
