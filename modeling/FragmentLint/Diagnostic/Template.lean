import FragmentLint.Diagnostic.Basic
import FragmentLint.Family
import FragmentLint.Text.Blank

/-!
# Wording

All messages and hints that a user sees are worded here: one function for each way in
which a fragment can fail. Each message has at least one character, whatever is put into
it.
-/

namespace FragmentLint.Template

open Text

def contextLimit : Nat := 40

/-- The longest message taken over from a parser whose wording is not recognized. -/
def messageLimit : Nat := 150

/-- The types of diagrams, in the order in which they are shown. -/
def diagramTypes : List Text :=
  ["flowchart", "sequenceDiagram", "classDiagram", "stateDiagram", "erDiagram", "gantt", "pie",
   "mindmap", "timeline", "gitGraph"]

/-- A text, or another one where it is empty. -/
def orElse (t fallback : Text) : Text :=
  if t = [] then fallback else t

theorem orElse_ne_nil {t fallback : Text} (h : fallback ≠ []) : orElse t fallback ≠ [] := by
  by_cases ht : t = [] <;> simp [orElse, ht, h]

def emptyContent (family : Family) (start : Line) : Finding :=
  match family with
  | .mermaid =>
    { line := start, message := "Empty Mermaid diagram",
      hint := some "Add a diagram type (e.g., flowchart, sequenceDiagram) and content",
      code := some .emptyContent }
  | .math =>
    { line := start, message := "Empty math block",
      hint := some "Add a LaTeX expression (e.g., E = mc^2)", code := some .emptyContent }

def missingEntryPoint (start : Line) (firstLine : Text) : Finding :=
  { line := start, message := "Missing diagram type declaration",
    hint := some "Start with a diagram type like: flowchart, sequenceDiagram, classDiagram",
    context := some ((trim firstLine).take contextLimit), code := some .missingEntryPoint }

def positionalParseFailure (line : Option Line) (message : Text) (hint context : Option Text) :
    Diagnostic :=
  { code := .positionalParseFailure, message := orElse message "Parse error", line, hint, context,
    message_ne_nil := orElse_ne_nil (by decide) }

/-- The message and the hint for a token without an entry in the table of tokens. -/
def unexpectedToken (token : Text) : Text × Text :=
  ("Syntax error: unexpected \"" ++ token ++ "\"", "Check the syntax near this position")

def lexicalFailure (line : Option Line) : Diagnostic :=
  { code := .lexicalFailure, message := "Unrecognized text or keyword", line,
    hint := some "Check for typos, invalid keywords, or unsupported syntax",
    message_ne_nil := by decide }

def unknownDiagramType (firstLine : Text) : Diagnostic :=
  { code := .unknownEntryPoint,
    message := "Unknown diagram type: \"" ++ orElse firstLine "(empty)" ++ "\"",
    line := some Line.first,
    hint := some ("Valid types: " ++ Text.join ", " diagramTypes),
    context := nonempty? (firstLine.take contextLimit) }

def unexpectedCharacter (line : Line) (character : Text) : Diagnostic :=
  { code := .unexpectedCharacter, message := "Unexpected character \"" ++ character ++ "\"",
    line := some line, hint := some "Check for typos, missing quotes, or invalid characters" }

def expectedToken (kind : Text) : Diagnostic :=
  { code := .expectedToken, message := "Expected " ++ kind, line := some Line.first,
    hint := some "Check the diagram syntax and structure" }

def enumeratedAlternatives : Diagnostic :=
  { code := .enumeratedAlternativesFailure, message := "Invalid syntax", line := some Line.first,
    hint := some "Check command syntax (e.g., branch name, checkout target)",
    message_ne_nil := by decide }

def unknownFailureFormat (message : Text) : Diagnostic :=
  { code := .unknownFailureFormat,
    message := orElse ((firstLine message).take messageLimit) "Unknown parse error",
    hint := some "Check the diagram syntax for errors",
    message_ne_nil := orElse_ne_nil (by decide) }

/-- Phrases of failing formulas, each with its hint. The first phrase that occurs counts. -/
def formulaHints : List (Text × Text) :=
  [("Undefined control sequence",
    "Check for typos in command names or use \\text\x7b\x7d for regular text"),
   ("Expected '\x7d'", "Make sure all braces \x7b\x7d are properly closed"),
   ("Expected group", "Add the required argument in braces: \\command\x7bargument\x7d"),
   ("Unexpected end of input",
    "The expression is incomplete - check for missing closing braces or arguments")]

def formulaHint? (message : Text) : Option Text :=
  (formulaHints.find? fun (phrase, _) => phrase.occursIn message).map (·.2)

/-- The parser of formulas reported a failure of its own kind. -/
def positionalStructuredFailure (line : Option Line) (message : Text) (context : Option Text) :
    Diagnostic :=
  { code := .positionalStructuredFailure, message := orElse message "KaTeX parse error", line,
    hint := formulaHint? (orElse message "KaTeX parse error"), context,
    message_ne_nil := orElse_ne_nil (by decide) }

/-- The parser of formulas failed in some other way. -/
def unknownStructuredFailure (message : Text) (context : Option Text) : Diagnostic :=
  { code := .unknownStructuredFailure, message := orElse message "Unknown KaTeX parse error",
    context, message_ne_nil := orElse_ne_nil (by decide) }

end FragmentLint.Template
