import FragmentLint.CommandLine.Arguments
import FragmentLint.CommandLine.Files
import FragmentLint.CommandLine.Path
import FragmentLint.Lint.Documents

/-!
# The command line

The command line lints the files that its arguments name and shows what the rules report,
file after file. It ends with 0 if nothing was reported, with 1 if something was, and with 2
if it could not do its work: a rule is unknown or a file cannot be read. In the last case
nothing is linted at all.

What the files hold, how parsers run and what shows the output is handed in.
-/

namespace FragmentLint.CommandLine

/-- What shows the output. -/
structure Screen where
  /-- Whether colours can be shown. -/
  color : Bool := false
  /-- Why a text cannot be shown, if it cannot. An encoding may have no form for a character, and
  none has one for half of a pair that stands alone. -/
  refusal? : Text → Option Defect := fun _ => none

def Screen.utf8 (color : Bool) : Screen :=
  { color
    refusal? := fun t => (Text.Utf8.refusal? t).map fun reason => ⟨"UnicodeEncodeError", reason⟩ }

structure Outcome where
  exit : Nat
  output : Text
  errors : Text
  /-- What came of running the parsers. -/
  world : World

/-- How the command line ended. -/
inductive Ending where
  /-- The arguments ask for nothing that can be done. -/
  | refused (refusal : Refusal)
  | done (outcome : Outcome)
  /-- The run broke down. -/
  | broke (fault : Fault)

/-- Texts in the order of their characters, each of them once. -/
def ordered (ts : List Text) : List Text :=
  ts.eraseDups.mergeSort fun a b => !decide (b < a)

def unknownRules (names : List Text) : List Text :=
  ordered (names.filter fun name => Rule.all.all fun r => !r.names.toList.contains name)

/-- The rules that run: those with one of the given names, or all without any. -/
def chosenRules (names : List Text) : List Rule :=
  if names.isEmpty then Rule.all
  else Rule.all.filter fun r => names.any r.names.toList.contains

/-- Documents with the text of one set: in the place of its old text, else at the end. -/
def putDocument : List (Text × Text) → Text → Text → List (Text × Text)
  | [], name, text => [(name, text)]
  | (other, old) :: rest, name, text =>
    if other = name then (other, text) :: rest else (other, old) :: putDocument rest name text

def failed (message : Text) : Outcome :=
  ⟨2, [], "[ERROR] " ++ message ++ ['\n'], {}⟩

/-- Why the file at a path cannot even be looked for: the path has no written form, or holds a null
character, which ends it there. -/
def lookupFault? (files : Files) (name : Text) : Option Fault :=
  match files name with
  | .error (.unnamed reason) => some (.defect ⟨"UnicodeEncodeError", reason⟩)
  | _ => if name.contains (Char.ofNat 0) then some (.value .nullInPath) else none

/-- The text of the file at a path. A path that cannot be read ends the run, and one that cannot be
looked for breaks it. -/
def readDocument (files : Files) (name : Text) : Except Ending Text :=
  match lookupFault? files name with
  | some fault => .error (.broke fault)
  | none => match files.read name with
    | .error reason => .error (.done (failed ("Cannot read " ++ name ++ ": " ++ reason)))
    | .ok text => .ok text

/-- The documents at several paths, behind some that have been read. The first path that
cannot be read ends the run. -/
def readDocuments (files : Files) : List Text → List (Text × Text) →
    Except Ending (List (Text × Text))
  | [], documents => .ok documents
  | path :: paths, documents => do
    let name := (Path.ofText path).text
    let text ← readDocument files name
    readDocuments files paths (putDocument documents name text)

def config (r : Request) : Json.Members :=
  [("mermaid-syntax", .obj [("basic", .bool r.basic)]),
   ("katex-syntax", .obj [("displayMode", .bool r.displayMode), ("strict", .bool r.strict)])]

def noticeLine (n : Notice) : Text :=
  n.weight.name ++ " " ++ n.origin ++ ": " ++ n.text ++ ['\n']

/-- The notices that are shown when a run is asked to be more or less verbose. -/
def shownNotices (verbosity : Nat) (notices : List Notice) : List Notice :=
  if verbosity = 0 then notices.filter Notice.isAlarm else notices

/-- The reports on the documents that have entries. -/
def reports (layout : Layout) (results : List (Text × List Entry)) : List Text :=
  (results.filter fun (_, entries) => !entries.isEmpty).map fun (name, entries) =>
    layout.report name entries

/-- The end of a run that linted its documents, in a given format. -/
def finished (request : Request) (format : Format) (color : Bool) (outcome : Lint.Outcome)
    (results : List (Text × List Entry)) : Outcome :=
  let count := (results.flatMap fun (_, entries) => entries).length
  let notices := outcome.notices ++ [.summary count results.length]
  { exit := if count = 0 then 0 else 1
    output := (reports { format, color } results).flatMap (· ++ ['\n'])
    errors := (shownNotices request.verbosity notices).flatMap noticeLine
    world := outcome.world }

/-- What comes of documents that are linted by the rules of given names. Reports are shown one after
another, and the first that cannot be shown breaks the run. -/
def lintDocuments [Host] (site : Site) (screen : Screen) (request : Request) (names : List Text)
    (documents : List (Text × Text)) : Option Ending := do
  let outcome ← Lint.lint site (chosenRules names) (config request) documents
  match outcome.results, request.format with
  | .error (.config fault), _ => return .done (failed fault.message)
  | .error fault, _ => return .broke fault
  | .ok _, none => return .broke (.value .lostFormat)
  | .ok results, some format =>
    match (reports { format, color := screen.color } results).findSome? screen.refusal? with
    | some refusal => return .broke (.defect refusal)
    | none => return .done (finished request format screen.color outcome results)

/-- What comes of a request. Names of rules are looked at before any file. -/
def serve [Host] (files : Files) (site : Site) (screen : Screen) (request : Request) :
    Option Ending :=
  match request.rules.mapM id with
  | none => some (.broke (.value .lostRule))
  | some names => match unknownRules names with
    | [] => match readDocuments files request.paths [] with
      | .error ending => some ending
      | .ok documents => lintDocuments site screen request names documents
    | unknown => some (.done (failed ("Unknown rule: " ++ Text.join ", " unknown)))

/-- What comes of the arguments of the command line. -/
def run [Host] (files : Files) (site : Site) (screen : Screen) (arguments : List Text) :
    Option Ending :=
  match Arguments.read arguments with
  | .error refusal => some (.refused refusal)
  | .ok request => serve files site screen request

end FragmentLint.CommandLine
