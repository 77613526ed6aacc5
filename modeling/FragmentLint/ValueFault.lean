import FragmentLint.Diagnostic.Code
import FragmentLint.Text.Quoted
import FragmentLint.Text.Utf8

/-!
# Values out of range

Line numbers count from one, offsets from zero, and a few names come from closed lists.
Whatever is handed in from outside is checked against these ranges once, where it becomes
a value of the library; each fault names its range.
-/

namespace FragmentLint

/-- A value outside the range that its place allows. -/
inductive ValueFault where
  | fragmentLine (line : Int)
  | errorLine (line : Int)
  | diagnosticLine (line : Int)
  | emptyMessage (code : Code)
  | negativePosition (position : Int)
  | negativeOffset (offset : Int)
  | tooManyDigits (count : Nat)
  /-- Brackets of a JSON text are nested too deep; the last one opens an object or an array. -/
  | tooDeep (opensObject : Bool)
  /-- A line of output is longer than can be read, whether its end was seen or not. -/
  | overlong (ended : Bool)
  /-- Output is no UTF-8. -/
  | undecodable (fault : Text.Utf8Fault)
  | unknownFamily (name : Text)
  | unknownTokenKind (name : Text)
  | unknownFormat (name : Text)
  | unknownMode (name : Text)
  | namelessRule
  | noPrimaryName
  /-- The name of a rule to run was lost. -/
  | lostRule
  /-- The name of the format was lost. -/
  | lostFormat
  /-- A path holds a null character. -/
  | nullInPath
  deriving DecidableEq, Repr

namespace ValueFault

/-- The kind of a fault, as reports of defects name it. -/
def kind : ValueFault → Text
  | .noPrimaryName => "IndexError"
  | .lostRule => "TypeError"
  | .tooDeep _ => "RecursionError"
  | .undecodable _ => "UnicodeDecodeError"
  | _ => "ValueError"

def message : ValueFault → Text
  | .fragmentLine n => "Fragment.start_line must be >= 1, got " ++ Text.ofInt n
  | .errorLine n => "ValidationError.line_number must be >= 1, got " ++ Text.ofInt n
  | .diagnosticLine n => "ParsedDiagnostic.line must be >= 1 (1-indexed), got " ++ Text.ofInt n
  | .emptyMessage code => "ParsedDiagnostic.message must not be empty (" ++ code.name ++ ")"
  | .negativePosition n => "Position must be >= 0, got " ++ Text.ofInt n
  | .negativeOffset n => "Offset must be >= 0, got " ++ Text.ofInt n
  | .tooManyDigits n =>
    "Exceeds the limit (4300 digits) for integer string conversion: value has " ++
      Text.ofNat n ++ " digits; use sys.set_int_max_str_digits() to increase the limit"
  | .tooDeep opensObject =>
    "maximum recursion depth exceeded while decoding a JSON " ++
      (if opensObject then "object" else "array") ++ " from a unicode string"
  | .overlong true => "Separator is found, but chunk is longer than limit"
  | .overlong false => "Separator is not found, and chunk exceed the limit"
  | .undecodable fault => Text.Utf8.message fault
  | .unknownFamily name => notOneOf name "ContentFamily"
  | .unknownTokenKind name => notOneOf name "TokenKind"
  | .unknownFormat name => notOneOf name "OutputFormat"
  | .unknownMode name => notOneOf name "ValidationMode"
  | .namelessRule => "RuleDescriptor.names must contain at least one name"
  | .noPrimaryName => "tuple index out of range"
  | .lostRule => "unhashable type: 'list'"
  | .lostFormat => "[] is not a valid OutputFormat"
  | .nullInPath => "embedded null byte"
where
  notOneOf (name list : Text) : Text :=
    Text.quoted name ++ " is not a valid " ++ list

end ValueFault

end FragmentLint
