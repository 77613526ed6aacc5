import FragmentLint.Text.Blank

/-!
# Blocks of raw HTML

A row that starts with one of seven kinds of HTML starts a block of raw HTML. The kind
tells where the block ends: at a closing text, or in front of an empty row. All but the
last kind, a complete tag alone on its row, can cut a paragraph short.

Names of elements are written in the basic alphabet, and case matters there for no letter; a
letter outside it is part of no name. The blanks of a complete tag may be of any kind.
-/

namespace FragmentLint.Markdown

open Text

/-- How a block of raw HTML ends, and whether it may cut a paragraph short. -/
inductive RawHtml where
  /-- An element whose content is taken as it is; it ends with a closing tag. -/
  | verbatim
  /-- A comment, an instruction, a declaration or character data, with what ends it. -/
  | until (stop : Text)
  /-- A tag of a block element; it ends in front of an empty row. -/
  | block
  /-- A complete tag of any name; it ends in front of an empty row. -/
  | tag
  deriving DecidableEq, Repr

namespace RawHtml

def verbatimNames : List Text := ["script", "pre", "style", "textarea"]

def blockNames : List Text :=
  (["address", "article", "aside", "base", "basefont", "blockquote", "body", "caption", "center",
   "col", "colgroup", "dd", "details", "dialog", "dir", "div", "dl", "dt", "fieldset",
   "figcaption", "figure", "footer", "form", "frame", "frameset", "h1", "h2", "h3", "h4", "h5",
   "h6", "head", "header", "hr", "html", "iframe", "legend", "li", "link", "main", "menu",
   "menuitem", "nav", "noframes", "ol", "optgroup", "option", "p", "param", "search", "section",
   "summary", "table", "tbody", "td", "tfoot", "th", "thead", "title", "tr", "track",
   "ul"] : List String).map String.toList

/-- A text with the capitals of the basic alphabet made small, and no other letter. -/
def lowered (t : Text) : Text :=
  t.map Char.toLower

/-- Whether one of the names starts a text, case aside, with a fitting rest behind it. -/
def startsWithName (names : List Text) (fits : Text → Bool) (t : Text) : Bool :=
  let small := lowered t
  names.any fun name => (after? name small).any fits

/-- Whether a character sets the name of an element off: a space, or a control character from
the tab to the carriage return. -/
def isPlainBlank (c : Char) : Bool :=
  c = ' ' || (9 ≤ c.toNat && c.toNat ≤ 13)

/-- Whether a name ends here: at a plain blank, at the end of its tag or of the row. -/
def nameEnds (t : Text) : Bool :=
  match t with
  | [] => true
  | c :: _ => isPlainBlank c || c = '>'

/-- Whether a name ends here, perhaps in front of a slash that closes its tag. -/
def blockNameEnds (t : Text) : Bool :=
  nameEnds t || startsWith t "/>"

/-- The characters that may go on a name of an element. -/
def isTagChar (c : Char) : Bool :=
  c.isAlphanum || c = '-'

/-- The characters that may start a name of an attribute. -/
def isAttributeStart (c : Char) : Bool :=
  c.isAlpha || c = '_' || c = ':'

/-- The characters that may go on a name of an attribute. -/
def isAttributeChar (c : Char) : Bool :=
  c.isAlphanum || c = ':' || c = '.' || c = '_' || c = '-'

def isBareChar (c : Char) : Bool :=
  !(c = '"' || c = '\'' || c = '=' || c = '<' || c = '>' || c = Char.ofNat 0x60 || c.toNat ≤ 0x20)

/-- All that may stand behind a value without quotes at the start of a text. Where the value
can stop is left open, since it may hold blanks that are no plain spaces. -/
def afterBare : Text → List Text
  | [] => []
  | c :: t =>
    if isBareChar c then
      (if t.head?.any fun d => isBareChar d && !isBlank d && d ≠ '/' then [] else [t]) ++
        afterBare t
    else []

/-- All that may stand behind the value of an attribute. -/
def afterValue (t : Text) : List Text :=
  match t with
  | [] => []
  | quote :: rest =>
    if quote = '"' || quote = '\'' then
      match rest.dropWhile (· != quote) with
      | _ :: rest => [rest]
      | [] => []
    else afterBare t

/-- All that may stand behind the value of an attribute and the blanks in front of it. Blanks
that are no plain ones may make up the value themselves. -/
def afterAssigned : Text → List Text
  | [] => []
  | c :: t =>
    if isBlank c then afterAssigned t ++ afterBare (c :: t) else afterValue (c :: t)

/-- All that may stand behind an attribute and the blanks in front of it. -/
def afterAttribute (t : Text) : List Text :=
  match t with
  | [] => []
  | c :: _ =>
    let t := trimStart t
    if isBlank c && t.head?.any isAttributeStart then
      let rest := t.dropWhile isAttributeChar
      let valued := match after? "=" (trimStart rest) with
        | some value => afterAssigned value
        | none => []
      rest :: valued
    else []

/-- Whether attributes, and then the end of a tag alone on its row, can be read. The number of
attributes is bounded. -/
def closesTag : Nat → Text → Bool
  | bound, t =>
    let rest := trimStart t
    let slashless := (after? "/" rest).getD rest
    ((after? ">" slashless).any fun rest => rest.all isBlank) ||
      match bound with
      | 0 => false
      | bound + 1 => (afterAttribute t).any (closesTag bound)

/-- Whether a row is a complete tag, opening or closing. -/
def isTag (t : Text) : Bool :=
  match t with
  | '<' :: '/' :: c :: rest =>
    c.isAlpha &&
      (after? ">" (trimStart (rest.dropWhile isTagChar))).any fun rest => rest.all isBlank
  | '<' :: c :: rest => c.isAlpha && closesTag rest.length (rest.dropWhile isTagChar)
  | _ => false

/-- The kind of raw HTML that the content of a row starts. -/
def of? (t : Text) : Option RawHtml :=
  match t with
  | '<' :: rest =>
    if startsWithName verbatimNames nameEnds rest then some verbatim
    else if startsWith rest "!--" then some (.until "-->")
    else if startsWith rest "?" then some (.until "?>")
    else if (after? "!" rest).any (fun name => name.head?.any Char.isAlpha) then some (.until ">")
    else if startsWith rest "![CDATA[" then some (.until "]]>")
    else if startsWithName blockNames blockNameEnds ((after? "/" rest).getD rest) then some block
    else if isTag t then some tag
    else none
  | _ => none

/-- Whether a block of this kind may cut a paragraph short. -/
def interruptsParagraph (h : RawHtml) : Bool :=
  h != tag

/-- Whether a row of a given content is the last one of its block, or ends it. -/
def endsAt (h : RawHtml) (t : Text) : Bool :=
  match h with
  | .verbatim =>
    let small := lowered t
    verbatimNames.any fun name => occursIn ("</" ++ name ++ ">") small
  | .until stop => stop.occursIn t
  | .block | .tag => t.isEmpty

end RawHtml

end FragmentLint.Markdown
