import FragmentLint.Json.Basic
import FragmentLint.Text.Quoted

/-!
# Values in messages

A message shows a JSON value by its literal: words for nothing and the truth values,
numbers by their text, texts quoted, and lists and mappings in brackets and braces. Shown
on its own, a text stands as it is.
-/

namespace FragmentLint.Json

mutual

/-- A value as a message quotes it. -/
def literal : Json → Text
  | .null => "None"
  | .bool true => "True"
  | .bool false => "False"
  | .num x => x.text
  | .str t => Text.quoted t
  | .arr [] => "[]"
  | .arr (item :: items) => '[' :: literal item ++ literalItems items
  | .obj [] => ['\x7b', '\x7d']
  | .obj ((name, value) :: members) =>
    '\x7b' :: Text.quoted name ++ ": " ++ literal value ++ literalMembers members

/-- The items of a list behind its first one, and the closing bracket. -/
def literalItems : List Json → Text
  | [] => [']']
  | item :: items => ", " ++ literal item ++ literalItems items

/-- The members of a mapping behind its first one, and the closing brace. -/
def literalMembers : List (Text × Json) → Text
  | [] => ['\x7d']
  | (name, value) :: members =>
    ", " ++ Text.quoted name ++ ": " ++ literal value ++ literalMembers members

end

/-- A value as a message shows it on its own. -/
def shown : Json → Text
  | .str t => t
  | value => literal value

end FragmentLint.Json
