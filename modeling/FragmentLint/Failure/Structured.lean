import FragmentLint.Diagnostic.Template
import FragmentLint.Failure.Basic
import FragmentLint.Position
import FragmentLint.Text.Letter

/-!
# Diagnosis of structured failures

The parser of formulas reports the offset at which it failed, so the line is a matter of
counting and the context is cut around the offset. A failure that is not of the parser's
own kind has no place; its context is the start of the code.
-/

namespace FragmentLint.Structured

open Text

/-- How many characters of context stand on each side of a position. -/
def contextRadius : Nat := 15

/-- A message without the name of the parser in front of it. -/
def withoutHeader (message : Text) : Text :=
  match afterFolded? "katex parse error:" message with
  | some rest => trimStart rest
  | none => message

/-- The position of a failure, if it has one that is not negative. -/
def position? (failure : Failure) : Option Nat :=
  match failure.position with
  | some (.ofNat p) => some p
  | _ => none

/-- The diagnostic for a failure of a piece of code. -/
def diagnose (failure : Failure) (code : Text) : Diagnostic :=
  if failure.structured then
    let message := withoutHeader failure.message
    match position? failure with
    | none => Template.positionalStructuredFailure none message none
    | some p =>
      Template.positionalStructuredFailure
        (some (Line.first.down (Position.lineOffset code p))) message
        (some (Position.context code p contextRadius))
  else
    Template.unknownStructuredFailure failure.message
      (nonempty? (code.take Template.contextLimit))

end FragmentLint.Structured
