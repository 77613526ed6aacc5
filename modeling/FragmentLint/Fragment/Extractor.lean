import FragmentLint.Family
import FragmentLint.Fragment.Carrier
import FragmentLint.Token

/-!
# Extraction

Each content family has its fence tags and its HTML carriers. A fenced block whose info
text is one of the tags, blanks and case aside, carries its content as it is. A block of
raw HTML is scanned for each kind of carrier in turn, so within one block the fragments
are grouped by kind.

A mark is a fragment whose place is still that of its token. With a line for a place it
becomes a fragment; with an integer from outside that may fail.
-/

namespace FragmentLint

/-- A carried piece of code, placed by its token and the line feeds above it within. -/
structure Mark (Place : Type) where
  /-- The place of the token. -/
  place : Place
  /-- The number of line feeds between the start of the token and the carrier. -/
  above : Nat
  code : Text
  deriving Repr

namespace Mark

def fragment (m : Mark Line) : Fragment :=
  ⟨m.code, m.place.down m.above⟩

/-- The fragment of a mark whose token was placed from outside. -/
def fragment? (m : Mark Int) : Except ValueFault Fragment :=
  Fragment.at? m.code (m.place + m.above)

end Mark

structure Extractor where
  /-- The tags of fenced blocks, in small letters. -/
  tags : List Text
  /-- The HTML elements, in the order in which a block is scanned for them. -/
  carriers : List Carrier

namespace Extractor

def marksIn {Place : Type} (e : Extractor) (token : Token Place) : List (Mark Place) :=
  match token.kind with
  | .fence =>
    if Text.lower (Text.trim token.info) ∈ e.tags then [⟨token.place, 0, token.content⟩] else []
  | .html => e.carriers.flatMap fun carrier =>
      (carrier.scan token.content).map fun s => ⟨token.place, s.above, s.code⟩
  | .other => []

def marks {Place : Type} (e : Extractor) (tokens : List (Token Place)) : List (Mark Place) :=
  tokens.flatMap e.marksIn

/-- The fragments in the tokens of a document, in order. -/
def fragments (e : Extractor) (tokens : List (Token Line)) : List Fragment :=
  (e.marks tokens).map Mark.fragment

/-- The fragments in tokens from outside; the first one that is out of range fails. -/
def fragments? (e : Extractor) (tokens : List (Token Int)) : Except ValueFault (List Fragment) :=
  (e.marks tokens).mapM Mark.fragment?

@[simp] theorem fragments_nil (e : Extractor) : e.fragments [] = [] := rfl

theorem fragments_append (e : Extractor) (ts us : List (Token Line)) :
    e.fragments (ts ++ us) = e.fragments ts ++ e.fragments us := by
  simp [fragments, marks]

end Extractor

namespace Family

def tags : Family → List Text
  | .mermaid => ["mermaid"]
  | .math => ["math", "latex", "tex", "katex"]

def carriers : Family → List Carrier
  | .mermaid =>
    [⟨"pre", .plain "mermaid"⟩, ⟨"div", .plain "mermaid"⟩, ⟨"code", .plain "language-mermaid"⟩]
  | .math =>
    [⟨"span", .plain "math"⟩, ⟨"div", .plain "math"⟩,
     ⟨"code", .oneOf "language-" ["math", "latex", "tex", "katex"]⟩]

def extractor (f : Family) : Extractor :=
  ⟨f.tags, f.carriers⟩

end Family

end FragmentLint
