import FragmentLint.Json.Basic
import FragmentLint.Text.Units

/-!
# JSON text

A style fixes what separates the items of an array and the name of a member from its
value, and whether characters outside the basic alphabet are written as escapes. Control
characters, quotes and backslashes are escaped in every style, so the text of a value
never holds a line feed.
-/

namespace FragmentLint.Json

/-- What is free in JSON text. -/
structure Style where
  /-- What stands between two items or members. -/
  comma : Text
  /-- What stands between a member's name and its value. -/
  colon : Text
  /-- Whether characters outside the basic alphabet are written as escapes. -/
  basicOnly : Bool

/-- Spaces behind commas and colons, basic alphabet only: the style of requests. -/
def Style.request : Style := ⟨", ", ": ", true⟩

/-- Spaces behind commas and colons, all characters as they are: the style of reports. -/
def Style.report : Style := ⟨", ", ": ", false⟩

/-- No spaces, all characters as they are: the style of replies. -/
def Style.reply : Style := ⟨",", ":", false⟩

def escapedUnit (n : Nat) : Text :=
  '\\' :: 'u' :: Text.hex 4 n

def escapedChar (basicOnly : Bool) (c : Char) : Text :=
  if c = '"' then ['\\', '"']
  else if c = '\\' then ['\\', '\\']
  else if c = '\n' then ['\\', 'n']
  else if c = '\r' then ['\\', 'r']
  else if c = '\t' then ['\\', 't']
  else if c.toNat = 8 then ['\\', 'b']
  else if c.toNat = 12 then ['\\', 'f']
  else if c.toNat < 0x20 then escapedUnit c.toNat
  else if !basicOnly || c.toNat < 0x7f then [c]
  else if c.toNat ≤ 0xffff then escapedUnit c.toNat
  else
    let (high, low) := Text.surrogates c
    escapedUnit high ++ escapedUnit low

def quotedText (basicOnly : Bool) (t : Text) : Text :=
  '"' :: t.flatMap (escapedChar basicOnly) ++ ['"']

/-- The text of a floating-point number; the values that are no finite numbers have names. -/
def realText : Binary64 → Text
  | .nan => "NaN"
  | .infinite negative => if negative then "-Infinity" else "Infinity"
  | x => x.text

mutual

def render (style : Style) : Json → Text
  | .null => "null"
  | .bool true => "true"
  | .bool false => "false"
  | .num (.int n) => Text.ofInt n
  | .num (.real x) => realText x
  | .str t => quotedText style.basicOnly t
  | .arr [] => "[]"
  | .arr (item :: items) => '[' :: render style item ++ renderItems style items
  | .obj [] => ['\x7b', '\x7d']
  | .obj ((name, value) :: members) =>
    '\x7b' :: quotedText style.basicOnly name ++ style.colon ++ render style value ++
      renderMembers style members

/-- The items of an array behind its first one, and the closing bracket. -/
def renderItems (style : Style) : List Json → Text
  | [] => [']']
  | item :: items => style.comma ++ render style item ++ renderItems style items

/-- The members of an object behind its first one, and the closing brace. -/
def renderMembers (style : Style) : List (Text × Json) → Text
  | [] => ['\x7d']
  | (name, value) :: members =>
    style.comma ++ quotedText style.basicOnly name ++ style.colon ++ render style value ++
      renderMembers style members

end

end FragmentLint.Json
