import FragmentLint.Line
import FragmentLint.Markdown.Marker
import FragmentLint.Markdown.RawHtml
import FragmentLint.Markdown.Reference
import FragmentLint.Text.Blank
import FragmentLint.Token

/-!
# Block tokens of a Markdown document

The rows of a document are cut into blocks: code, fences, quotes, rules, lists, link
definitions, raw HTML, headings and paragraphs, tried in this order on each row that is
not empty. Quotes and lists hold blocks of their own. A quote gives its blocks rows without
the quote marks; a list item gives its blocks the rows as they are, but asks for more
indentation. What opens and what closes a block is a token of its own; a closing token has
no row and is placed on the first line.

The recursion is bounded: along every chain of nested calls either a row is used up or the
nesting grows, and beyond a fixed nesting the rest of a container is skipped.
-/

namespace FragmentLint.Markdown

def nestingLimit : Nat := 20

/-- What a container knows while its blocks are cut. -/
structure Scope where
  /-- All rows of the document, those of the container as it sees them. -/
  rows : Array Row
  /-- The row at which even paragraphs end. -/
  limit : Nat
  /-- The columns of indentation that the container asks for. -/
  indent : Int
  /-- The indentation that the list around an item asks for. -/
  listIndent : Option Int
  /-- How deep the container is nested. -/
  level : Nat

namespace Scope

/-- A row of the document. Behind the last row there is an empty one. -/
def row (s : Scope) (n : Nat) : Row :=
  s.rows.getD n ⟨[], 0, 0, 0, false⟩

def span (s : Scope) (start stop : Nat) : List Row :=
  (s.rows.extract start stop).toList

/-- Whether a row is indented far enough to be code. -/
def isCode (s : Scope) (r : Row) : Bool :=
  s.indent + 4 ≤ r.indent

/-- Whether a row is too far left for the list around it and yet no item of it. -/
def isStrayItem (s : Scope) (r : Row) : Bool :=
  s.listIndent.any (fun l => l + 4 ≤ r.indent) && r.indent < s.indent

def item? (s : Scope) (r : Row) : Option ItemMark :=
  if s.isCode r || s.isStrayItem r then none else itemMark? r.content

/-- Whether a row ends the list in front of it: it starts a fence, a quote or a rule. -/
def endsList (s : Scope) (r : Row) : Bool :=
  !s.isCode r && ((fence? r.content).isSome || isQuote r.content || isRule r.content)

/-- Whether a row ends the quote or definition in front of it. -/
def endsBlock (s : Scope) (r : Row) : Bool :=
  s.endsList r || (s.item? r).isSome ||
    (!s.isCode r && (((RawHtml.of? r.content).any (·.interruptsParagraph)) ||
      (heading? r.content).isSome))

/-- Whether a row ends the paragraph in front of it. An item that is part of the container
does so only if it has content and its number is one. -/
def endsParagraph (s : Scope) (r : Row) : Bool :=
  s.endsList r ||
    (s.item? r).any (fun m => r.indent < s.indent || m.interruptsParagraph) ||
    (!s.isCode r && (((RawHtml.of? r.content).any (·.interruptsParagraph)) ||
      (heading? r.content).isSome))

/-- Whether a row that is not empty goes on with what stands in front of it, unless one of the
given ends says otherwise. -/
def continues (s : Scope) (ends : Row → Bool) (r : Row) : Bool :=
  s.isCode r || r.indent < 0 || !ends r

/-- The first row from a given one on that is not empty. -/
def skipEmpty (s : Scope) : Nat → Nat → Nat
  | 0, n => n
  | fuel + 1, n => if n < s.limit && (s.row n).isEmpty then s.skipEmpty fuel (n + 1) else n

def paragraphEnd (s : Scope) : Nat → Nat → Nat
  | 0, n => n
  | fuel + 1, n =>
    let r := s.row n
    if n < s.limit && !r.isEmpty && s.continues s.endsParagraph r then s.paragraphEnd fuel (n + 1)
    else n

/-- The row that underlines the paragraph in front of it and makes it a heading. -/
def underline? (s : Scope) (stop : Nat) : Nat → Nat → Option Nat
  | 0, _ => none
  | fuel + 1, n =>
    let r := s.row n
    if n < stop && !r.isEmpty then
      if !s.isCode r && s.indent ≤ r.indent && isUnderline r.content then some n
      else if s.continues s.endsParagraph r then s.underline? stop fuel (n + 1)
      else none
    else none

/-- The rows that may go on with a link definition. -/
def definitionRows (s : Scope) : Nat → Nat → List Row
  | 0, _ => []
  | fuel + 1, n =>
    let r := s.row n
    if n < s.limit && !r.isEmpty && s.continues s.endsBlock r then
      r :: s.definitionRows fuel (n + 1)
    else []

/-- The row behind indented code: behind the last row of code, with empty rows between. -/
def codeEnd (s : Scope) (stop : Nat) : Nat → Nat → Nat → Nat
  | 0, _, last => last
  | fuel + 1, n, last =>
    let r := s.row n
    if n < stop then
      if r.isEmpty then s.codeEnd stop fuel (n + 1) last
      else if s.isCode r then s.codeEnd stop fuel (n + 1) (n + 1)
      else last
    else last

/-- The row at which a fence ends, and whether it closes the fence. -/
def fenceEnd (s : Scope) (f : Fence) (stop : Nat) : Nat → Nat → Nat × Bool
  | 0, n => (n, false)
  | fuel + 1, n =>
    let r := s.row n
    if stop ≤ n || (!r.isEmpty && r.indent < s.indent) || (r.isEmpty && !r.ended) then (n, false)
    else if !s.isCode r && f.closedBy r.content then (n, true)
    else s.fenceEnd f stop fuel (n + 1)

def rawHtmlEnd (s : Scope) (h : RawHtml) (stop : Nat) : Nat → Nat → Nat
  | 0, n => n
  | fuel + 1, n =>
    let r := s.row n
    if stop ≤ n || (!r.isEmpty && r.indent < s.indent) then n
    else if h.endsAt r.content then if r.isEmpty then n else n + 1
    else s.rawHtmlEnd h stop fuel (n + 1)

/-- The rows of a quote from a given one on, the row behind them, and whether another block
ends the quote. Whether the row before was empty inside is given. -/
def quoteRows (s : Scope) (stop : Nat) : Nat → Nat → Bool → List Row × Nat × Bool
  | 0, n, _ => ([], n, false)
  | fuel + 1, n, lastEmpty =>
    let r := s.row n
    if stop ≤ n || r.isEmpty then ([], n, false)
    else if isQuote r.content && s.indent ≤ r.indent then
      let inside := r.unquoted
      let (rows, rest) := s.quoteRows stop fuel (n + 1) inside.isEmpty
      (inside :: rows, rest)
    else if lastEmpty then ([], n, false)
    else if s.endsBlock r then ([], n, true)
    else
      let (rows, rest) := s.quoteRows stop fuel (n + 1) false
      ({ r with indent := -1 } :: rows, rest)

/-- The rows of the document with some of them replaced from a given one on. -/
def withRows (s : Scope) (start : Nat) (rows : List Row) : Array Row :=
  s.rows.extract 0 start ++ rows.toArray ++ s.rows.extract (start + rows.length) s.rows.size

end Scope

def lineOf (n : Nat) : Line :=
  Line.first.down n

/-- A token on a row that can carry no fragment. -/
def plain (n : Nat) (content : Text) : Token Line :=
  ⟨.other, [], content, lineOf n⟩

/-- The tokens of a block that holds one text: its opening, the text, its closing. -/
def textBlock (n : Nat) (content : Text) : List (Token Line) :=
  [plain n [], plain n content, plain 0 []]

/-- The tokens of a block without blocks inside, and the row behind it. -/
def leaf (s : Scope) (n stop : Nat) : List (Token Line) × Nat :=
  let r := s.row n
  let t := r.content
  let fuel := s.rows.size + 1
  match fence? t with
  | some f =>
    let (last, closed) := s.fenceEnd f stop fuel (n + 1)
    ([⟨.fence, f.info, wholeText r.indent (s.span (n + 1) last), lineOf n⟩],
      if closed then last + 1 else last)
  | none =>
    if isRule t then ([plain n []], n + 1)
    else match Reference.rows? (r.line ++ (s.definitionRows fuel (n + 1)).flatMap (·.line)) with
    | some count => ([], n + count)
    | none => match RawHtml.of? t with
      | some h =>
        let last := if h.endsAt t then n + 1 else s.rawHtmlEnd h stop fuel (n + 1)
        ([⟨.html, [], wholeText s.indent (s.span n last), lineOf n⟩], last)
      | none => match heading? t with
        | some rest => (textBlock n (Text.trimLayout (headingText rest)), n + 1)
        | none => match s.underline? stop fuel (n + 1) with
          | some last =>
            (textBlock n (Text.trimLayout (innerText s.indent (s.span n last))), last + 1)
          | none =>
            let last := s.paragraphEnd fuel (n + 1)
            (textBlock n (Text.trimLayout (innerText s.indent (s.span n last))), last)

/-- The tokens of indented code, and the row behind it. -/
def codeBlock (s : Scope) (n stop : Nat) : List (Token Line) × Nat :=
  let last := s.codeEnd stop (s.rows.size + 1) (n + 1) (n + 1)
  ([plain n (innerText (s.indent + 4) (s.span n last) ++ ['\n'])], last)

mutual

/-- The tokens of the blocks from one row up to another, and the row behind them. -/
def blocks : Nat → Scope → Nat → Nat → List (Token Line) × Nat
  | 0, _, n, _ => ([], n)
  | fuel + 1, s, n, stop =>
    if stop ≤ n then ([], n)
    else
      let n := s.skipEmpty (s.rows.size + 1) n
      if stop ≤ n || (s.row n).indent < s.indent then ([], n)
      else if nestingLimit ≤ s.level then ([], stop)
      else
        let (tokens, next) := block fuel s n stop
        let next := if next < stop && (s.row next).isEmpty then next + 1 else next
        let (more, last) := blocks fuel s next stop
        (tokens ++ more, last)

/-- The tokens of the block that starts on a row, and the row behind it. -/
def block : Nat → Scope → Nat → Nat → List (Token Line) × Nat
  | 0, _, _, stop => ([], stop)
  | fuel + 1, s, n, stop =>
    let r := s.row n
    if s.isCode r then codeBlock s n stop
    else if isQuote r.content then quote fuel s n stop
    else if (fence? r.content).isSome || isRule r.content then leaf s n stop
    else match s.item? r with
      | some mark =>
        let (tokens, last) := items fuel s n stop mark
        (plain n [] :: tokens ++ [plain 0 []], last)
      | none => leaf s n stop

def quote : Nat → Scope → Nat → Nat → List (Token Line) × Nat
  | 0, _, _, stop => ([], stop)
  | fuel + 1, s, n, stop =>
    let first := (s.row n).unquoted
    let (rows, next, cut) := s.quoteRows stop (s.rows.size + 1) (n + 1) first.isEmpty
    let inside : Scope :=
      { s with rows := s.withRows n (first :: rows), limit := if cut then next else s.limit,
               indent := 0, level := s.level + 1 }
    let (tokens, last) := blocks fuel inside n next
    (plain n [] :: tokens ++ [plain 0 []], last)

/-- The tokens of the items of a list from one of them on, and the row behind them. -/
def items : Nat → Scope → Nat → Nat → ItemMark → List (Token Line) × Nat
  | 0, _, _, stop, _ => ([], stop)
  | fuel + 1, s, n, stop, mark =>
    let r := s.row n
    let behindMark := r.indent + mark.width
    let (pad, column) := padding r.start behindMark.toNat mark.rest
    let isBare := mark.rest.length ≤ pad
    let gap : Int := if isBare then 1 else column - behindMark
    let gap := if 4 < gap then 1 else gap
    let inner : Row := { r with skip := r.skip + mark.width + pad, indent := column }
    let inside : Scope :=
      { s with rows := s.rows.setIfInBounds n inner, indent := behindMark + gap,
               listIndent := some s.indent, level := s.level + 2 }
    let (tokens, last) :=
      if isBare && (s.row (n + 1)).isEmpty then ([], min (n + 2) stop)
      else blocks fuel inside n stop
    let tokens :=
      ⟨.other, mark.number.getD [], [], lineOf n⟩ :: tokens ++ [plain 0 []]
    let next := s.row last
    if stop ≤ last || next.indent < s.indent || s.isCode next || s.endsList next then
      (tokens, last)
    else match itemMark? next.content with
      | some other =>
        if mark.continuedBy other then
          let (more, end_) := items fuel s last stop other
          (tokens ++ more, end_)
        else (tokens, last)
      | none => (tokens, last)

end

def tokenize (t : Text) : List (Token Line) :=
  let rows := (rowsOf (normalize t)).toArray
  let s : Scope :=
    { rows, limit := rows.size, indent := 0, listIndent := none, level := 0 }
  (blocks (4 * rows.size + 4 * nestingLimit + 8) s 0 rows.size).1

end FragmentLint.Markdown
