import FragmentLint.Markdown.Row
import FragmentLint.Text.Digit

/-!
# Marks of blocks

What block starts on a row shows at the start of its content: a fence, a quote mark, a
rule of at least three marks, a list mark, a heading mark, or an underline that makes the
paragraph above it a heading. All functions take the content of a row.
-/

namespace FragmentLint.Markdown

structure Fence where
  /-- The character of the fence. -/
  mark : Char
  /-- How many of them there are, at least three. -/
  count : Nat
  /-- What stands behind them. -/
  info : Text

def graveAccent : Char := Char.ofNat 0x60

/-- The fence at the start of a content. Behind a fence of grave accents none may follow. -/
def fence? (t : Text) : Option Fence :=
  match t with
  | [] => none
  | mark :: _ =>
    let run := t.takeWhile (· = mark)
    let info := t.dropWhile (· = mark)
    if (mark = '~' || mark = graveAccent) && 3 ≤ run.length && !(mark = graveAccent && mark ∈ info)
    then some ⟨mark, run.length, info⟩
    else none

/-- Whether a content closes a fence: at least as many marks, and only padding behind. -/
def Fence.closedBy (f : Fence) (t : Text) : Bool :=
  f.count ≤ (t.takeWhile (· = f.mark)).length && (t.dropWhile (· = f.mark)).all isPad

def isQuote (t : Text) : Bool :=
  t.head? = some '>'

/-- Whether a content is a rule: three or more of one mark, and padding. -/
def isRule (t : Text) : Bool :=
  match t with
  | [] => false
  | mark :: _ =>
    (mark = '*' || mark = '-' || mark = '_') && t.all (fun c => c = mark || isPad c) &&
      3 ≤ t.count mark

def heading? (t : Text) : Option Text :=
  let level := (t.takeWhile (· = '#')).length
  let rest := t.dropWhile (· = '#')
  if 1 ≤ level && level ≤ 6 && (rest.head?.all isPad) then some rest else none

def withoutPadding (t : Text) : Text :=
  (t.reverse.dropWhile isPad).reverse

/-- The text of a heading, without the closing marks that padding sets off. -/
def headingText (rest : Text) : Text :=
  let rest := withoutPadding rest
  let front := (rest.reverse.dropWhile (· = '#')).reverse
  if front.getLast?.any isPad then front else rest

/-- Whether a content underlines the paragraph above it. -/
def isUnderline (t : Text) : Bool :=
  match t with
  | [] => false
  | mark :: _ => (mark = '-' || mark = '=') && (t.dropWhile (· = mark)).all isPad

structure ItemMark where
  /-- The number of an ordered item, as it is written. -/
  number : Option Text
  /-- The character that ends the mark. -/
  sign : Char
  /-- How many characters the mark takes. -/
  width : Nat
  /-- What stands behind it. -/
  rest : Text

/-- The mark of an ordered item: up to nine digits and a point or a parenthesis. -/
def orderedMark? (t : Text) : Option ItemMark :=
  let number := t.takeWhile Char.isDigit
  match t.dropWhile Char.isDigit with
  | sign :: rest =>
    if number ≠ [] && number.length ≤ 9 && (sign = '.' || sign = ')') && rest.head?.all isPad
    then some ⟨some number, sign, number.length + 1, rest⟩
    else none
  | [] => none

def bulletMark? (t : Text) : Option ItemMark :=
  match t with
  | sign :: rest =>
    if (sign = '*' || sign = '-' || sign = '+') && rest.head?.all isPad
    then some ⟨none, sign, 1, rest⟩
    else none
  | [] => none

/-- The mark of a list item at the start of a content. -/
def itemMark? (t : Text) : Option ItemMark :=
  (orderedMark? t).or (bulletMark? t)

/-- Whether an item may cut a paragraph short: it has content, and its number is one. -/
def ItemMark.interruptsParagraph (m : ItemMark) : Bool :=
  !m.rest.all isPad && m.number.all fun n => Text.digitsValue n = 1

/-- Whether another mark goes on with the list of this one. -/
def ItemMark.continuedBy (m other : ItemMark) : Bool :=
  m.number.isSome == other.number.isSome && m.sign = other.sign

end FragmentLint.Markdown
