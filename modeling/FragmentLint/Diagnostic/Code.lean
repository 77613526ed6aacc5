import FragmentLint.Text.Basic

/-!
# Failure codes

Every failure has a code. The thousands of its number tell the stage that found it: 1 for
the checks before parsing, 2 for a parser that reports in free text, 3 for one that
reports a position.
-/

namespace FragmentLint

/-- What went wrong with a fragment. -/
inductive Code where
  | emptyContent
  | missingEntryPoint
  | positionalParseFailure
  | lexicalFailure
  | unknownEntryPoint
  | unexpectedCharacter
  | expectedToken
  | enumeratedAlternativesFailure
  | unknownFailureFormat
  | positionalStructuredFailure
  | unknownStructuredFailure
  deriving DecidableEq, Repr

namespace Code

def all : List Code :=
  [.emptyContent, .missingEntryPoint, .positionalParseFailure, .lexicalFailure,
   .unknownEntryPoint, .unexpectedCharacter, .expectedToken, .enumeratedAlternativesFailure,
   .unknownFailureFormat, .positionalStructuredFailure, .unknownStructuredFailure]

theorem mem_all (c : Code) : c ∈ all := by
  cases c <;> decide

def number : Code → Nat
  | .emptyContent => 1001
  | .missingEntryPoint => 1002
  | .positionalParseFailure => 2001
  | .lexicalFailure => 2002
  | .unknownEntryPoint => 2003
  | .unexpectedCharacter => 2004
  | .expectedToken => 2005
  | .enumeratedAlternativesFailure => 2006
  | .unknownFailureFormat => 2099
  | .positionalStructuredFailure => 3001
  | .unknownStructuredFailure => 3099

def name : Code → Text
  | .emptyContent => "EMPTY_CONTENT"
  | .missingEntryPoint => "MISSING_ENTRY_POINT"
  | .positionalParseFailure => "POSITIONAL_PARSE_FAILURE"
  | .lexicalFailure => "LEXICAL_FAILURE"
  | .unknownEntryPoint => "UNKNOWN_ENTRY_POINT"
  | .unexpectedCharacter => "UNEXPECTED_CHARACTER"
  | .expectedToken => "EXPECTED_TOKEN"
  | .enumeratedAlternativesFailure => "ENUMERATED_ALTERNATIVES_FAILURE"
  | .unknownFailureFormat => "UNKNOWN_FAILURE_FORMAT"
  | .positionalStructuredFailure => "POSITIONAL_STRUCTURED_FAILURE"
  | .unknownStructuredFailure => "UNKNOWN_STRUCTURED_FAILURE"

def ofName? (t : Text) : Option Code :=
  all.find? (·.name = t)

@[simp] theorem ofName?_name (c : Code) : ofName? c.name = some c := by
  cases c <;> decide

end Code

end FragmentLint
