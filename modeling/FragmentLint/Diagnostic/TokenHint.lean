import FragmentLint.Text.Basic

/-!
# Hints for grammar tokens

The parsers of diagrams name the token at which they gave up. For the tokens that point to
a common slip, the table says what went wrong and how to mend it. The token named `1` is
the end of the input inside a block.
-/

namespace FragmentLint

structure TokenHint where
  /-- What went wrong. -/
  message : Text
  /-- How to mend it. -/
  hint : Text
  deriving DecidableEq, Repr

namespace TokenHint

def table : List (Text × TokenHint) :=
  [("SQS", ⟨"Unclosed square bracket",
     "Add closing ] to complete the node shape: A[text]"⟩),
   ("PS", ⟨"Unclosed parenthesis",
     "Add closing ) to complete the node shape: A(text) or A((text))"⟩),
   ("DIAMOND_START", ⟨"Unclosed curly brace or diamond",
     "Add closing \x7d to complete the shape: A\x7btext\x7d or A\x7b\x7btext\x7d\x7d"⟩),
   ("SUBROUTINESTART", ⟨"Unclosed subroutine shape",
     "Add closing ]] to complete the subroutine: A[[text]]"⟩),
   ("STADIUMSTART", ⟨"Unclosed stadium shape",
     "Add closing ]) to complete the stadium: A([text])"⟩),
   ("CYLINDERSTART", ⟨"Unclosed cylinder shape",
     "Add closing ]) to complete the cylinder: A[(text)]"⟩),
   ("DOUBLECIRCLESTART", ⟨"Unclosed double circle shape",
     "Add closing ))) to complete the double circle: A(((text)))"⟩),
   ("TRAPSTART", ⟨"Unclosed trapezoid shape",
     "Add closing /] to complete the trapezoid: A[/text/]"⟩),
   ("INVTRAPSTART", ⟨"Unclosed inverse trapezoid shape",
     "Add closing \\] to complete the inverse trapezoid: A[\\text\\]"⟩),
   ("TAGEND", ⟨"Unclosed asymmetric shape",
     "Add closing ] to complete the asymmetric shape: A>text]"⟩),
   ("1", ⟨"Unclosed block",
     "Add \"end\" to close subgraph, loop, alt, opt, par, critical, rect, or state block"⟩),
   ("EOF_IN_STRUCT", ⟨"Unclosed namespace or struct block",
     "Add closing \x7d to complete the namespace or class definition"⟩),
   ("STRUCT_START", ⟨"Invalid struct declaration",
     "Check class syntax: class ClassName \x7b ... \x7d"⟩),
   ("NODE_STRING", ⟨"Unexpected text",
     "Check for missing arrows (-->, ---) or invalid syntax"⟩),
   ("NEWLINE", ⟨"Incomplete statement",
     "Add missing parts (e.g., colon for messages: Alice->>Bob: message)"⟩),
   ("EOF", ⟨"Unexpected end of diagram",
     "Statement is incomplete - add missing node, message, or closing element"⟩),
   ("LINK", ⟨"Missing link source",
     "Add source node before arrow: A --> B"⟩),
   ("ACTOR", ⟨"Invalid participant reference",
     "Check participant name in note/over statement"⟩),
   ("TXT", ⟨"Missing message text",
     "Add message after colon: Alice->>Bob: Hello"⟩),
   ("IDENTIFYING", ⟨"Invalid ER relationship",
     "Use valid relationship: ||--o\x7b, \x7do--||, etc."⟩),
   ("ONLY_ONE", ⟨"Invalid ER cardinality",
     "Check cardinality symbols: ||, |o, o|, \x7d|, |\x7b, etc."⟩),
   ("BLOCK_STOP", ⟨"Invalid ER attribute block",
     "Check attribute syntax: EntityName \x7b type attrName \x7d"⟩),
   ("INVALID", ⟨"Invalid state transition",
     "Use --> for transitions: StateA --> StateB"⟩),
   ("taskData", ⟨"Invalid task data",
     "Check task format: taskName :status, startDate, duration"⟩),
   ("GENERICTYPE", ⟨"Invalid generic type",
     "Check generic syntax: class ClassName~Type~"⟩),
   ("STYLE_SEPARATOR", ⟨"Invalid style syntax",
     "Check style definition syntax"⟩),
   ("COMMIT_ID", ⟨"Invalid commit reference",
     "Use valid commit command: commit id: \"message\""⟩),
   ("COMMIT_TAG", ⟨"Invalid commit tag",
     "Use valid tag: commit tag: \"v1.0\""⟩)]

def find? (token : Text) : Option TokenHint :=
  (table.find? (·.1 = token)).map (·.2)

theorem message_ne_nil {token : Text} {h : TokenHint} (found : find? token = some h) :
    h.message ≠ [] := by
  obtain ⟨entry, he, rfl⟩ := Option.map_eq_some_iff.1 found
  have all : ∀ e ∈ table, e.2.message ≠ [] := by decide
  exact all entry (List.mem_of_find?_eq_some he)

end TokenHint

end FragmentLint
