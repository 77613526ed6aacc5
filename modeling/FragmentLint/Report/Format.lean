import FragmentLint.Json.Printer
import FragmentLint.Report.Entry

/-!
# Report formats

A report shows the entries of one document in one of three formats: as blocks in the
manner of a compiler, with one line for each entry, or as one JSON object on each line.
A context can be cut at a length, so that no entry grows out of bounds.
-/

namespace FragmentLint

/-- How entries are shown. -/
inductive Format where
  /-- Blocks in the manner of a compiler. -/
  | rust
  /-- One line for each entry. -/
  | simple
  /-- One JSON object for each entry. -/
  | json
  deriving DecidableEq, Repr

namespace Format

def all : List Format := [.rust, .simple, .json]

def name : Format → Text
  | .rust => "rust"
  | .simple => "simple"
  | .json => "json"

def ofName? (t : Text) : Except ValueFault Format :=
  match all.find? (·.name = t) with
  | some format => .ok format
  | none => .error (.unknownFormat t)

@[simp] theorem ofName?_name (f : Format) : ofName? f.name = .ok f := by
  cases f <;> rfl

def separator : Format → Text
  | .rust => "\n\n"
  | _ => "\n"

end Format

structure Layout where
  format : Format := .rust
  /-- Whether the word at the start of a block is coloured. -/
  color : Bool := false
  /-- The length at which contexts are cut, if they are. A negative one counts from the
  end of the context. -/
  limit : Option Int := none
  deriving DecidableEq, Repr

namespace Layout

def shown (l : Layout) (context : Text) : Text :=
  match l.limit with
  | some limit =>
    if limit < context.length then Text.slice context 0 limit ++ "..." else context
  | none => context

/-- The context of an entry as a report shows it, if there is one. -/
def context? (l : Layout) (e : Entry) : Option Text :=
  (e.context.bind Text.nonempty?).map l.shown

def severity (l : Layout) : Text :=
  if l.color then "\x1b[1;31merror\x1b[0m" else "error"

/-- A part of a block behind its label, where there is one. -/
def labelled (label : Text) : Option Text → List Text
  | some t => [label ++ t]
  | none => []

/-- An entry as a block. -/
def block (l : Layout) (source : Text) (e : Entry) : Text :=
  Text.join "\n" <|
    [l.severity ++ "[" ++ e.names.primary ++ "]: " ++ e.message,
     "  --> " ++ source ++ ":" ++ Text.ofInt e.line] ++
    labelled "  |  " (l.context? e) ++ labelled "  = help: " (e.hint.bind Text.nonempty?)

def line (l : Layout) (source : Text) (e : Entry) : Text :=
  let behind := match l.context? e with
    | some context => " [Context: " ++ context ++ "]"
    | none => []
  source ++ ":" ++ Text.ofInt e.line ++ " " ++ e.names.primary ++ " " ++ e.detail ++ behind

/-- A member of a JSON object, where it has a value. -/
def member? (name : Text) : Option Text → Json.Members
  | some t => [(name, .str t)]
  | none => []

def members (l : Layout) (source : Text) (e : Entry) : Json.Members :=
  ([("source", .str source), ("line", .num (.int e.line)), ("rule", .str e.names.primary),
    ("rule_names", .arr (e.names.toList.map .str)), ("detail", .str e.detail),
    ("message", .str e.message)] : Json.Members) ++
  member? "hint" (e.hint.bind Text.nonempty?) ++ member? "code" (e.code.map (·.name)) ++
  member? "context" (l.context? e)

def entry (l : Layout) (source : Text) (e : Entry) : Text :=
  match l.format with
  | .rust => l.block source e
  | .simple => l.line source e
  | .json => (Json.obj (l.members source e)).render .report

/-- The entries of a document in the format of a layout. -/
def report (l : Layout) (source : Text) (entries : List Entry) : Text :=
  Text.join l.format.separator (entries.map (l.entry source))

end Layout

end FragmentLint
