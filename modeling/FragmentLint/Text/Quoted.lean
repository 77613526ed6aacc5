import FragmentLint.Text.Printable
import FragmentLint.Text.Units

/-!
# Quoted texts

A message quotes a text so that it stays on one line. The quotes are single ones, except
where the text holds a single quote and no double quote. A backslash, the quote itself
and the characters that are not printable are written as escapes.
-/

namespace FragmentLint.Text

def quoteOf (t : Text) : Char :=
  if t.contains '\'' && !t.contains '"' then '"' else '\''

def quotedChar (quote c : Char) : Text :=
  if c = quote || c = '\\' then ['\\', c]
  else if c = '\t' then "\\t"
  else if c = '\n' then "\\n"
  else if c = '\r' then "\\r"
  else if isPrintable c then [c]
  else if isLoneHalf c then "\\u" ++ hex 4 (loneUnit c)
  else if c.toNat ≤ 0xff then "\\x" ++ hex 2 c.toNat
  else if c.toNat ≤ 0xffff then "\\u" ++ hex 4 c.toNat
  else "\\U" ++ hex 8 c.toNat

def quoted (t : Text) : Text :=
  let quote := quoteOf t
  quote :: t.flatMap (quotedChar quote) ++ [quote]

end FragmentLint.Text
