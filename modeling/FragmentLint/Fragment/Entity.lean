import FragmentLint.Text.Basic

/-!
# Escapes in carried code

Code inside an HTML element is written with named escapes. Six of them are read, one after
the other over the whole text: the ampersand's own escape comes behind those for the angle
brackets, so that an escaped `&lt;` reads as `&lt;` and not as a bracket. All other escapes
stay as they are.
-/

namespace FragmentLint.Entity

/-- The escapes that are read, in the order in which they are. Each is given without its
ampersand. -/
def escapes : List (Text × Char) :=
  [("lt;", '<'), ("gt;", '>'), ("amp;", '&'), ("quot;", '"'), ("#39;", '\''), ("nbsp;", ' ')]

/-- A text with one escape read throughout. -/
def read (escape : Text × Char) (t : Text) : Text :=
  Text.replace '&' escape.1 [escape.2] t

/-- A text with all six escapes read. -/
def decode (t : Text) : Text :=
  escapes.foldl (fun t escape => read escape t) t

/-- How one character is written inside an element or an attribute. -/
def encodeChar (c : Char) : Text :=
  if c = '&' then "&amp;"
  else if c = '<' then "&lt;"
  else if c = '>' then "&gt;"
  else if c = '"' then "&quot;"
  else if c = '\'' then "&#39;"
  else [c]

/-- A text as it is written inside an element or an attribute. -/
def encode (t : Text) : Text :=
  t.flatMap encodeChar

/-- How one character is written where quotes have no meaning. -/
def encodeBodyChar (c : Char) : Text :=
  if c = '&' then "&amp;"
  else if c = '<' then "&lt;"
  else if c = '>' then "&gt;"
  else [c]

/-- A text as it is written where quotes have no meaning. -/
def encodeBody (t : Text) : Text :=
  t.flatMap encodeBodyChar

end FragmentLint.Entity
