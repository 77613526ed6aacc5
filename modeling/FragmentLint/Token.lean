import FragmentLint.ValueFault

/-!
# Block tokens

A document is cut into block tokens. Two kinds of them can carry a fragment, a fenced code
block and a block of raw HTML. The place of a token is whatever its source knows about it:
a line for the tokens of a document, any integer for tokens from outside. Extraction never
looks at the place, it only hands it on.
-/

namespace FragmentLint

/-- What a block token is, as far as fragments are concerned. -/
inductive TokenKind where
  | fence
  | html
  | other
  deriving DecidableEq, Repr

namespace TokenKind

def all : List TokenKind := [.fence, .html, .other]

def name : TokenKind → Text
  | .fence => "fence"
  | .html => "html_block"
  | .other => "other"

def ofName? (t : Text) : Except ValueFault TokenKind :=
  match all.find? (·.name = t) with
  | some kind => .ok kind
  | none => .error (.unknownTokenKind t)

@[simp] theorem ofName?_name (k : TokenKind) : ofName? k.name = .ok k := by
  cases k <;> rfl

end TokenKind

structure Token (Place : Type) where
  kind : TokenKind
  /-- What stands behind the marker of a fence or of an ordered item. -/
  info : Text
  /-- The raw content. -/
  content : Text
  /-- Where the block starts. -/
  place : Place
  deriving Repr

end FragmentLint
