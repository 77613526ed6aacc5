import FragmentLint.Text.Blank
import FragmentLint.Text.Digit
import FragmentLint.Text.Letter

/-!
# Shapes of free-text messages

The parsers of diagrams report in prose. A message has one of six shapes, or none: the
shapes are looked for in a fixed order, each anywhere in the message, and the first one
found counts, at the first place where it stands. Some shapes ignore case.

The module also reads three details of a message: the token behind "got", the line without
its header, and the excerpt that a parser echoes above its caret.
-/

namespace FragmentLint

open Text

/-- What a message of one of the known shapes says. -/
inductive Shape where
  /-- A parse error on a line, given by its digits. -/
  | parseError (digits : Text)
  /-- A lexical error on a line, given by its digits. -/
  | lexicalError (digits : Text)
  /-- The type of the diagram was not recognized. -/
  | noDiagramType
  /-- A character was rejected at an offset, given by its digits. -/
  | unexpectedCharacter (character : Char) (digits : Text)
  /-- A token of a kind was expected. -/
  | expectedToken (kind : Text)
  /-- One of several continuations was expected. -/
  | alternatives
  deriving DecidableEq, Repr

namespace Shape

/-- The first place of a text at which something can be read, and what is read there. -/
def search {α : Type} (read? : Text → Option α) : Text → Option α
  | [] => read? []
  | c :: t => (read? (c :: t)).or (search read? t)

/-- A run of digits at the start of a text, and what stands behind it. -/
def run? (t : Text) : Option (Text × Text) :=
  match t.takeWhile isDigit with
  | [] => none
  | digits => some (digits, t.dropWhile isDigit)

/-- The digits of a parse error at the start of a text. -/
def parseErrorAt? (t : Text) : Option Shape := do
  let (digits, t) ← run? (← afterFolded? "parse error on line " t)
  let _ ← after? ":" t
  some (.parseError digits)

/-- The digits of a lexical error at the start of a text. -/
def lexicalErrorAt? (t : Text) : Option Shape := do
  let (digits, _) ← run? (← afterFolded? "lexical error on line " t)
  some (.lexicalError digits)

/-- A message that no type was recognized, at the start of a text. -/
def noDiagramTypeAt? (t : Text) : Option Shape :=
  (after? "No diagram type detected" t).map fun _ => .noDiagramType

/-- A rejected character and its offset at the start of a text. A line feed is never named. -/
def unexpectedCharacterAt? (t : Text) : Option Shape :=
  match after? "unexpected character: ->" t with
  | some (c :: t) =>
    if c = '\n' then none
    else do
      let (digits, _) ← run? (← after? "<- at offset: " t)
      some (.unexpectedCharacter c digits)
  | _ => none

/-- Whether a text goes on with "but", behind a quote or not. -/
def butFollows (t : Text) : Bool :=
  (afterFolded? " but" t).isSome ||
    match t with
    | '\'' :: t => (afterFolded? " but" t).isSome
    | _ => false

/-- The longest beginning of a text that holds no quote, is not empty and has "but" behind
it. -/
def kindBeforeBut? : Text → Option Text
  | [] => none
  | c :: t =>
    if c = '\'' then none
    else ((kindBeforeBut? t).map (c :: ·)).or (if butFollows t then some [c] else none)

/-- The kind behind a space and, if possible, an opening quote. -/
def kind? (t : Text) : Option Text := do
  let t ← after? " " t
  match t with
  | '\'' :: u => kindBeforeBut? u
  | t => kindBeforeBut? t

/-- An expected kind of token at the start of a text. The words "token of type" belong to the
kind only where nothing can be read behind them. -/
def expectedTokenAt? (t : Text) : Option Shape := do
  let t ← afterFolded? "expecting" t
  let kind ← ((afterFolded? " token of type" t).bind kind?).or (kind? t)
  some (.expectedToken kind)

def alternativesAt? (t : Text) : Option Shape :=
  (after? "Expecting: one of these possible" t).map fun _ => .alternatives

structure Rule where
  name : Text
  /-- Reads the shape at the start of a text. -/
  at? : Text → Option Shape

/-- Finds the shape of a rule anywhere in a message. -/
def Rule.find? (r : Rule) (message : Text) : Option Shape :=
  search r.at? message

/-- The rules, in the order in which they are tried. -/
def rules : List Rule :=
  [⟨"parse-error", parseErrorAt?⟩, ⟨"lexical-error", lexicalErrorAt?⟩,
   ⟨"no-diagram-type", noDiagramTypeAt?⟩, ⟨"unexpected-character", unexpectedCharacterAt?⟩,
   ⟨"expected-token", expectedTokenAt?⟩, ⟨"enumerated-alternatives", alternativesAt?⟩]

/-- The shape of a message with the name of the rule that recognized it. -/
def recognize? (message : Text) : Option (Text × Shape) :=
  rules.findSome? fun r => (r.find? message).map (r.name, ·)

def of? (message : Text) : Option Shape :=
  (recognize? message).map (·.2)

/-- The token between quotes behind "got", at the start of a text. -/
def gotAt? (t : Text) : Option Text := do
  let t ← after? ", got '" t
  match t.takeWhile (· != '\''), t.dropWhile (· != '\'') with
  | c :: token, _ :: _ => some (c :: token)
  | _, _ => none

/-- The token behind "got", behind at least one more character of the line. -/
def gotBehind? : Text → Option Text
  | [] => none
  | c :: t => if c = '\n' then none else (gotAt? t).or (gotBehind? t)

/-- The token at which the parser gave up, behind what it expected on the same line. -/
def gotToken? (message : Text) : Option Text :=
  search (fun t => (after? "Expecting " t).bind gotBehind?) message

/-- A line without the header of a parse error. The header is recognized in its own case. -/
def withoutHeader (line : Text) : Text :=
  match (after? "Parse error on line " line).bind run? with
  | some (_, ':' :: rest) => trimStart rest
  | _ => line

/-- The excerpt above the first line with a caret: without three leading dots, trimmed. There
is none if no line has a caret or the first one does. -/
def excerpt? : List Text → Option Text
  | above :: line :: rest =>
    if '^' ∈ above then none
    else if '^' ∈ line then some (trim ((after? "..." above).getD above))
    else excerpt? (line :: rest)
  | _ => none

end Shape

end FragmentLint
