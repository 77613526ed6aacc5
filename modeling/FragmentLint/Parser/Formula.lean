import FragmentLint.Parser.Reply
import FragmentLint.Parser.Site
import FragmentLint.Position
import FragmentLint.Rule.Options

/-!
# The parser of formulas

Each formula is parsed by a script of its own. The script reports where a formula is wrong
in code units, which are turned into characters here. A failure of any other kind is taken
for a fault of the bridge. Both become failures; only a place in front of the formula
breaks the parser.
-/

namespace FragmentLint.Formula

def unknownMessage : Text := "Unknown KaTeX parse error"

/-- The kind of failures that have a place in the formula. -/
def structuredKind : Text := "ParseError"

def payload (code : Text) (displayMode strict : Bool) : Json.Members :=
  [("code", .str code),
   ("options", .obj [("displayMode", .bool displayMode), ("strict", .bool strict)])]

/-- Whether an answer names the kind of failures that have a place. -/
def isStructured (reply : Json.Members) : Bool :=
  match reply.get? "name" with
  | some (.str kind) => kind = structuredKind
  | _ => false

def ofReply (code : Text) (reply : Json.Members) : Except ParseFault Unit :=
  if Reply.accepts reply then .ok ()
  else
    let message := Reply.message reply unknownMessage
    if isStructured reply then
      match (reply.get? "position").bind Json.asInt? with
      | none => .error (.rejected message none)
      | some offset => match Position.ofUnitsAt? code offset with
        | .ok position => .error (.rejected message (some position))
        | .error fault => .error (.fault (.value fault))
    else .error (.fault (.bridge (.reported false message)))

def parse [Host] (site : Site) (code : Text) (displayMode strict : Bool) (w : World) :
    Except ParseFault Unit × World :=
  match site.settings? with
  | .error fault => (.error (.fault (.bridge fault)), w)
  | .ok settings =>
    let (answer, w) := site.runOnce (payload code displayMode strict) settings w
    match answer with
    | .error fault => (.error (.fault fault), w)
    | .ok reply => (ofReply code reply, w)

def verdict : Except ParseFault Unit → Verdict
  | .ok () => .accepted
  | .error (.rejected message position) =>
    .rejected { message, position := position.map Int.ofNat, structured := true }
  | .error (.fault (.bridge fault)) => .rejected { message := fault.message }
  | .error (.fault fault) => .broke fault.asDefect

/-- The verdict on a formula, with the world as the state. -/
def check [Host] (site : Site) (options : Options) (code : Text) (w : World) :
    Checked World :=
  let (outcome, w) := parse site code options.displayMode options.strict w
  ⟨verdict outcome, [], w⟩

def checker [Host] (site : Site) (options : Options) : Checker World :=
  ⟨"katex", false, fun code w => some (check site options code w)⟩

end FragmentLint.Formula
