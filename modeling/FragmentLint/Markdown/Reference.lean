import FragmentLint.Markdown.Row
import FragmentLint.Text.Blank
import FragmentLint.Text.Digit
import FragmentLint.Text.Units

/-!
# Link reference definitions

A definition gives a label in brackets, a colon, a destination and perhaps a title. It
leaves no token behind, so all that counts is how many rows it takes. A title stands behind
a gap, unless it takes several rows, and never behind a destination that takes the line
feed of its row with it. What turns out to be no title is left to what follows, if the
destination ends its row.

The text of a definition is its first row and the rows that may go on with it, each from
its content on and with its line feed.
-/

namespace FragmentLint.Markdown.Reference

open Text

/-- The label behind an opening bracket, and what stands behind the closing one. -/
def label? : Text → Option (Text × Text)
  | [] => none
  | '[' :: _ => none
  | ']' :: rest => some ([], rest)
  | '\\' :: c :: t => (label? t).map fun (label, rest) => ('\\' :: c :: label, rest)
  | c :: t => (label? t).map fun (label, rest) => (c :: label, rest)

/-- A destination in angle brackets, behind the opening one. It ends on its row. -/
def bracketed? : Text → Option (Text × Text)
  | [] => none
  | '>' :: rest => some ([], rest)
  | '<' :: _ => none
  | '\n' :: _ => none
  | '\\' :: c :: t => (bracketed? t).map fun (front, rest) => ('\\' :: c :: front, rest)
  | c :: t => (bracketed? t).map fun (front, rest) => (c :: front, rest)

/-- A destination without brackets: no control characters, and balanced parentheses. -/
def bare? (level : Nat) : Text → Option (Text × Text)
  | [] => if level = 0 then some ([], []) else none
  | '\\' :: ' ' :: t => if level = 0 then some ([], '\\' :: ' ' :: t) else none
  | '\\' :: c :: t => (bare? level t).map fun (front, rest) => ('\\' :: c :: front, rest)
  | c :: t =>
    if c.toNat ≤ 0x20 || c.toNat = 0x7f then if level = 0 then some ([], c :: t) else none
    else if c = '(' then
      if 32 ≤ level then none
      else (bare? (level + 1) t).map fun (front, rest) => (c :: front, rest)
    else if c = ')' then
      if level = 0 then some ([], c :: t)
      else (bare? (level - 1) t).map fun (front, rest) => (c :: front, rest)
    else (bare? level t).map fun (front, rest) => (c :: front, rest)

/-- The destination at the start of a row, and the rest of the row. -/
def destination? (row : Text) : Option (Text × Text) :=
  match row with
  | '<' :: t => bracketed? t
  | t => match bare? 0 t with
    | some ([], _) => none
    | found => found

/-- A title behind its opening mark, and what stands behind the closing one. -/
def titleBody? (close : Char) : Text → Option (Text × Text)
  | [] => none
  | '\\' :: c :: t => (titleBody? close t).map fun (front, rest) => ('\\' :: c :: front, rest)
  | c :: t =>
    if c = close then some ([], t)
    else if c = '(' && close = ')' then none
    else (titleBody? close t).map fun (front, rest) => (c :: front, rest)

/-- The title at the start of a text, and what stands behind it. -/
def title? : Text → Option (Text × Text)
  | '"' :: t => titleBody? '"' t
  | '\'' :: t => titleBody? '\'' t
  | '(' :: t => titleBody? ')' t
  | _ => none

/-- A text up to and with its first line feed, and what stands behind. -/
def splitRow : Text → Text × Text
  | [] => ([], [])
  | '\n' :: t => (['\n'], t)
  | c :: t =>
    let (row, rest) := splitRow t
    (c :: row, rest)

def rowEnds (t : Text) : Bool :=
  match t.dropWhile isPad with
  | [] => true
  | c :: _ => c = '\n'

/-- A text without the padding and line feeds at its start. -/
def skipGap (t : Text) : Text :=
  t.dropWhile fun c => isPad c || c = '\n'

def isPunctuation (c : Char) : Bool :=
  let n := c.toNat
  (0x21 ≤ n && n ≤ 0x2f) || (0x3a ≤ n && n ≤ 0x40) || (0x5b ≤ n && n ≤ 0x60) ||
    (0x7b ≤ n && n ≤ 0x7e)

/-- The names of blanks and of the marks that can stand in the scheme of a link. -/
def characterNames : List (Text × List Nat) :=
  [("colon", [0x3a]), ("sol", [0x2f]), ("semi", [0x3b]), ("Tab", [0x09]), ("NewLine", [0x0a]),
   ("nbsp", [0xa0]), ("NonBreakingSpace", [0xa0]), ("ensp", [0x2002]), ("emsp", [0x2003]),
   ("emsp13", [0x2004]), ("emsp14", [0x2005]), ("numsp", [0x2007]), ("puncsp", [0x2008]),
   ("thinsp", [0x2009]), ("ThinSpace", [0x2009]), ("hairsp", [0x200a]),
   ("VeryThinSpace", [0x200a]), ("MediumSpace", [0x205f]), ("ThickSpace", [0x205f, 0x200a])]

/-- Whether a number may stand for a character in an escape: it is that of a character, and
neither a control other than the common ones nor set aside for good. -/
def isEscapable (n : Nat) : Bool :=
  n.isValidChar && !(0xfdd0 ≤ n && n ≤ 0xfdef) && 0xfffe > n % 0x10000 &&
    (n = 0x09 || n = 0x0a || n = 0x0c || n = 0x0d || 0x20 ≤ n) && !(0x7f ≤ n && n ≤ 0x9f)

/-- The character of a number, if it may stand for one. -/
def numbered? (n : Nat) : Option Text :=
  if isEscapable n then some [Char.ofNat n] else none

/-- The characters of an escape given between ampersand and semicolon. -/
def named? (name : Text) : Option Text :=
  match name with
  | '#' :: x :: digits =>
    if x = 'x' || x = 'X' then
      if digits ≠ [] && digits.length ≤ 8 then
        (digits.mapM hexValue?).bind fun ds => numbered? (ds.foldl (fun n d => 16 * n + d) 0)
      else none
    else if (x :: digits).all Char.isDigit && digits.length < 8 then
      numbered? (digitsValue (x :: digits))
    else none
  | _ => (characterNames.find? (·.1 = name)).map fun (_, points) => points.map Char.ofNat

/-- A destination as it is followed: escapes are read. -/
def followed : (skip : Nat) → Text → Text
  | _, [] => []
  | skip + 1, _ :: t => followed skip t
  | 0, '\\' :: c :: t =>
    if isPunctuation c then c :: followed 1 (c :: t) else '\\' :: followed 0 (c :: t)
  | 0, '&' :: t =>
    let name := t.takeWhile (· != ';')
    match if name.length < t.length then named? name else none with
    | some read => read ++ followed (name.length + 1) t
    | none => '&' :: followed 0 t
  | 0, c :: t => c :: followed 0 t

def refusedSchemes : List Text := ["vbscript:", "javascript:", "file:", "data:"]

/-- The kinds of data that a link may hold all the same. -/
def allowedData : List Text :=
  ["data:image/gif;", "data:image/png;", "data:image/jpeg;", "data:image/webp;"]

def isAllowed (destination : Text) : Bool :=
  let link := (trim (followed 0 destination)).map Char.toLower
  !refusedSchemes.any (startsWith link ·) || allowedData.any (startsWith link ·)

/-- How many rows a definition takes, if the text starts with one. -/
def rows? (t : Text) : Option Nat := do
  let t ← after? "[" t
  let (label, t₁) ← label? t
  let t₂ := skipGap (← after? ":" t₁)
  let (row, later) := splitRow t₂
  let (destination, rest) ← destination? row
  guard (isAllowed destination)
  let before := newlines t - newlines t₂
  let alone : Option Nat := do
    guard (rowEnds rest)
    guard (trimLayout label ≠ [])
    some (before + 1)
  let gap := skipGap (rest ++ later)
  if rest = [] then alone
  else match title? gap with
    | none => alone
    | some (title, behind) =>
      if gap.length = (rest ++ later).length && newlines title = 0 then alone
      else if rowEnds behind then do
        guard (trimLayout label ≠ [])
        some (newlines t - newlines behind + 1)
      else if title = [] then none
      else alone

end FragmentLint.Markdown.Reference
