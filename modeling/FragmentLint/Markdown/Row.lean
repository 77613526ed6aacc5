import FragmentLint.Text.Basic

/-!
# Rows of a document

Block structure is found row by row. A row is one line of the document as the container
around it sees it: the text behind the container's marks, how much of that text is
indentation, and how many columns the indentation takes. A tab reaches to the next column
that is a multiple of four, and columns count from the start of the line in the document,
so a row remembers the column where its text starts.

A row can be out of place in its container and still belong to it, as the continuation of
a paragraph. Its indentation is then negative.
-/

namespace FragmentLint.Markdown

/-- Whether a character is one of the two that make up indentation. -/
def isPad (c : Char) : Bool :=
  c = ' ' || c = '\t'

/-- The column behind a padding character. Tab stops count from `start` columns before. -/
def padTo (start column : Nat) (c : Char) : Nat :=
  if c = '\t' then column + (4 - (column + start) % 4) else column + 1

structure Row where
  /-- The text behind the marks of the container. -/
  text : Text
  /-- How many characters of the text are skipped to reach its content. -/
  skip : Nat
  /-- The columns that indentation takes, negative for a row that only continues. -/
  indent : Int
  /-- The column of the document at which the text starts, for the sake of tabs. -/
  start : Nat
  /-- Whether a line feed ends the row. -/
  ended : Bool
  deriving Repr, Inhabited

namespace Row

def content (r : Row) : Text :=
  r.text.drop r.skip

def isEmpty (r : Row) : Bool :=
  r.text.length ≤ r.skip

def line (r : Row) : Text :=
  r.content ++ if r.ended then ['\n'] else []

end Row

/-- The padding at the start of a text: how many characters, and the column behind it. -/
def padding (start : Nat) : Nat → Text → Nat × Nat
  | column, [] => (0, column)
  | column, c :: t =>
    if isPad c then
      let (count, column) := padding start (padTo start column c) t
      (count + 1, column)
    else (0, column)

def Row.ofLine (line : Text) (ended : Bool) : Row :=
  let (skip, indent) := padding 0 0 line
  ⟨line, skip, indent, 0, ended⟩

/-- The rows of a document. What stands behind the last line feed is a row only if it holds
more than padding. -/
def rowsOf (t : Text) : List Row :=
  let all := Text.lines t
  let whole := all.dropLast.map fun line => Row.ofLine line true
  match all.getLast? with
  | some rest => if rest.all isPad then whole else whole ++ [Row.ofLine rest false]
  | none => whole

/-- Line ends of all kinds made line feeds, and the null character made the replacement
character. -/
def normalize : Text → Text
  | '\r' :: '\n' :: t => '\n' :: normalize t
  | '\r' :: t => '\n' :: normalize t
  | c :: t => (if c.toNat = 0 then Char.ofNat 0xfffd else c) :: normalize t
  | [] => []

/-- A row behind a quote mark and the space that may follow it. A tab behind the mark is a
space and the rest of the tab. -/
def Row.unquoted (r : Row) : Row :=
  let rest := r.content.drop 1
  let column := r.indent.toNat + 1
  let wide := rest.head? = some '\t' && (r.start + column) % 4 ≠ 3
  let spaced := rest.head?.any isPad
  let text := if spaced && !wide then rest.drop 1 else rest
  let first := if spaced && !wide then column + 1 else column
  let (skip, last) := padding (r.start + if wide then 1 else 0) first text
  { text, skip, indent := (last : Int) - first, start := column + if spaced then 1 else 0,
    ended := r.ended }

/-- A text without its first columns. The characters that the container skips count as
padding; a tab that is cut in two leaves spaces. -/
def cutColumns (columns start : Nat) : (skip column : Nat) → Text → Text
  | _, column, [] => List.replicate (column - columns) ' '
  | skip, column, c :: t =>
    if columns ≤ column then List.replicate (column - columns) ' ' ++ c :: t
    else if isPad c then
      cutColumns columns start (skip - 1) (padTo start column c) t
    else if 0 < skip then cutColumns columns start (skip - 1) (column + 1) t
    else c :: t

def Row.cut (columns : Int) (r : Row) : Text :=
  cutColumns columns.toNat r.start r.skip 0 r.text

/-- Rows without their first columns as one text, every row with its line feed. -/
def wholeText (columns : Int) (rows : List Row) : Text :=
  rows.flatMap fun r => r.cut columns ++ if r.ended then ['\n'] else []

/-- Rows without their first columns as one text; the last row has no line feed. -/
def innerText (columns : Int) (rows : List Row) : Text :=
  Text.join ['\n'] (rows.map (·.cut columns))

end FragmentLint.Markdown
