import FragmentLint.Bridge.Shared
import FragmentLint.Parser.Reply

/-!
# The parser of diagrams

Diagrams are parsed by a shared session, which is started by the first request. A diagram
that was rejected fails with the parser's message. So does one whose parser could not be
asked, with the fault for a message, and the fault is noted as well.
-/

namespace FragmentLint.Diagram

def unknownMessage : Text := "Unknown parse error"

def payload (code : Text) : Json.Members :=
  [("code", .str code)]

def ofReply (reply : Json.Members) : Except ParseFault Unit :=
  if Reply.accepts reply then .ok ()
  else .error (.rejected (Reply.message reply unknownMessage) none)

def parse {ω : Type} (k : Keeper ω) (code : Text) (s : Shared ω) :
    Option (Except ParseFault Unit × List Notice × Shared ω) :=
  match s.session k with
  | (none, _, _) => none
  | (some (.error fault), noted, s) => some (.error (.fault fault), noted, s)
  | (some (.ok n), noted, s) => do
    let (answer, world) ← k.request n (payload code) s.world
    let outcome := match answer with
      | .error fault => .error (.fault fault)
      | .ok reply => ofReply reply
    return (outcome, noted, { s with world })

/-- The verdict for an outcome of parsing, and what was noted. -/
def verdict : Except ParseFault Unit → Verdict × List Notice
  | .ok () => (.accepted, [])
  | .error (.rejected message _) => (.rejected { message }, [])
  | .error (.fault (.bridge fault)) =>
    (.rejected { message := "Mermaid parser unavailable: " ++ fault.message },
      [.unavailable fault.message])
  | .error (.fault fault) => (.broke fault.asDefect, [])

/-- The verdict on a diagram, with the shared session as the state. -/
def check {ω : Type} (k : Keeper ω) (code : Text) (s : Shared ω) :
    Option (Checked (Shared ω)) := do
  let (outcome, noted, s) ← parse k code s
  let (verdict, more) := verdict outcome
  return ⟨verdict, noted ++ more, s⟩

def checker {ω : Type} (k : Keeper ω) : Checker (Shared ω) :=
  ⟨"mermaid", true, check k⟩

/-- What comes of asking for a verdict at once. -/
def checkAtOnce : Fault :=
  .bridge .notAtOnce

end FragmentLint.Diagram
