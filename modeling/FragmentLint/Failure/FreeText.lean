import FragmentLint.Diagnostic.Template
import FragmentLint.Diagnostic.TokenHint
import FragmentLint.Failure.Basic
import FragmentLint.Failure.Shape
import FragmentLint.Position

/-!
# Diagnosis of free-text failures

The shape of a message gives the diagnostic of a failed diagram. The only way in which this
can fail is a run of digits beyond the limit: then the line or offset it stands for is not
read, and the fault is handed to the caller. Line zero is no line.
-/

namespace FragmentLint.FreeText

open Text

def number (digits : Text) : Except ValueFault Nat :=
  match readDigits digits with
  | .ok n => .ok n
  | .error count => .error (.tooManyDigits count)

/-- The line with a given number; zero is none. -/
def line? (n : Nat) : Option Line :=
  Line.ofInt? n

def parseErrorText (message : Text) : Text × Option Text :=
  match Shape.gotToken? message with
  | some token => match TokenHint.find? token with
    | some hint => (hint.message, some hint.hint)
    | none =>
      let (text, hint) := Template.unexpectedToken token
      (text, some hint)
  | none => (Shape.withoutHeader (firstLine message), none)

def ofShape (shape : Shape) (message code : Text) : Except ValueFault Diagnostic :=
  match shape with
  | .parseError digits => do
    let n ← number digits
    let (text, hint) := parseErrorText message
    return Template.positionalParseFailure (line? n) text hint (Shape.excerpt? (lines message))
  | .lexicalError digits => do
    let n ← number digits
    return Template.lexicalFailure (line? n)
  | .noDiagramType => .ok (Template.unknownDiagramType (Position.firstLine code))
  | .unexpectedCharacter character digits => do
    let offset ← number digits
    let index := indexOfUnits code offset
    return Template.unexpectedCharacter
      (Line.first.down (Position.linesBefore (lines code) index)) [character]
  | .expectedToken kind => .ok (Template.expectedToken kind)
  | .alternatives => .ok Template.enumeratedAlternatives

/-- The diagnostic for a message about a piece of code. -/
def diagnose (message code : Text) : Except ValueFault Diagnostic :=
  match Shape.of? message with
  | some shape => ofShape shape message code
  | none => .ok (Template.unknownFailureFormat message)

/-- The context for a diagnostic that has none: the start of the first line of code. -/
def fallbackContext (code : Text) : Option Text :=
  nonempty? ((firstLine code).take Template.contextLimit)

end FragmentLint.FreeText
