import FragmentLint.Text.Basic

/-!
# Paths

A path is a root, which may be missing, and the names behind it. Empty names and names for
the current directory say nothing and are left out; a name for the parent directory stays,
because it may lead elsewhere than back. Exactly two slashes at the start are a root of
their own.
-/

namespace FragmentLint

structure Path where
  /-- The slashes at the start: none, one or two. -/
  root : Text
  names : List Text
  deriving DecidableEq, Repr

namespace Path

def pieces : Text → List Text
  | [] => [[]]
  | '/' :: t => [] :: pieces t
  | c :: t => (pieces t).modifyHead (c :: ·)

def rootOf (t : Text) : Text :=
  match t.takeWhile (· = '/') with
  | [] => []
  | ['/', '/'] => "//"
  | _ => "/"

/-- Whether a piece of a text is a name that says something. -/
def isName (piece : Text) : Bool :=
  piece ≠ [] && piece ≠ ['.']

def ofText (t : Text) : Path :=
  ⟨rootOf t, (pieces t).filter isName⟩

/-- The text of a path. A path without root and names is the current directory. -/
def text (p : Path) : Text :=
  match p.root ++ Text.join "/" p.names with
  | [] => "."
  | t => t

end Path

end FragmentLint
