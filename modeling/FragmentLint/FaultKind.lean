import FragmentLint.Text.Basic

/-!
# Kinds of faults

The faults that the library raises form a small hierarchy, so that a caller can handle all
of them, those of the bridges or a single kind. Above the library's own kinds stand the
general ones that every host knows.
-/

namespace FragmentLint

/-- The kinds of faults that the library raises. -/
inductive FaultKind where
  /-- A fault of a bridge. -/
  | bridge
  /-- A fault that keeps a bridge from working at all. -/
  | unavailable
  /-- A configuration that makes no sense. -/
  | config
  /-- Any fault of the library. -/
  | any
  /-- A formula that its parser rejected. -/
  | formula
  /-- A diagram that its parser rejected. -/
  | diagram
  deriving DecidableEq, Repr

namespace FaultKind

def all : List FaultKind := [.bridge, .unavailable, .config, .any, .formula, .diagram]

def name : FaultKind → Text
  | .bridge => "BackendError"
  | .unavailable => "BackendUnavailableError"
  | .config => "ConfigError"
  | .any => "FencelintError"
  | .formula => "KatexParseError"
  | .diagram => "MermaidParseError"

def general : List Text := ["Exception", "BaseException", "object"]

/-- The names of a kind and of all kinds above it, from special to general. -/
def lineage (k : FaultKind) : List Text :=
  match k with
  | .any => any.name :: general
  | .config => config.name :: any.name :: "ValueError" :: general
  | .unavailable => unavailable.name :: bridge.name :: any.name :: general
  | k => k.name :: any.name :: general

end FaultKind

end FragmentLint
