import FragmentLint.Diagnostic.Template
import FragmentLint.Fragment.Basic

/-!
# Checks without a parser

Two checks need no parser: a fragment must not be blank, and a diagram must begin with a
word, behind blank lines and comments. Whether the word names a type of diagram is left to
the parser.
-/

namespace FragmentLint.Precheck

open Text

/-- The trimmed fragment, or the finding that it is blank. -/
def notEmpty (family : Family) (f : Fragment) : Except Finding Fragment :=
  if f.trimmed.code = [] then .error (Template.emptyContent family f.start) else .ok f.trimmed

def commentMark : Text := "%%"

/-- Whether a line is skipped: it is blank or a comment. -/
def isSkipped (line : Text) : Bool :=
  line.isEmpty || startsWith line commentMark

/-- Whether a line begins with a word of the basic alphabet. -/
def beginsWithWord (line : Text) : Bool :=
  line.head?.any Char.isAlpha

/-- Whether the first line that is not skipped begins with a word. -/
def hasEntryPoint (code : Text) : Bool :=
  (((lines code).map trim).find? (!isSkipped ·)).any beginsWithWord

/-- The finding that a diagram does not begin with a word. -/
def entryPoint (f : Fragment) : Option Finding :=
  if hasEntryPoint f.code then none
  else some (Template.missingEntryPoint f.start (firstLine f.code))

end FragmentLint.Precheck
