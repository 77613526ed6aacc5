import FragmentLint.CommandLine.Run
import FragmentLint.Proofs.Configuration

/-!
# How the command line ends

The names of rules are looked at first, then the files are read, and only then is anything linted.
So a name that is unknown or a path that cannot be read is the end of a run with nothing shown and
no process started, whatever the other files hold. Otherwise each file is linted once, however often
its path is given, and the exit tells whether anything was reported. What breaks a run is told
apart: the name of a rule or of the format may have been lost among the arguments, a path that
cannot even be looked for breaks the run where another one that cannot be read would end it, and a
report may hold what cannot be shown.
-/
namespace FragmentLint

namespace Lint

end Lint

namespace CommandLine

/-- A rule has this name, or it is one of its aliases. -/
def Known (name : Text) : Prop :=
  ∃ r ∈ Rule.all, name ∈ r.names.toList

def shown (path : Text) : Text :=
  (Path.ofText path).text

/-- Why the file of a name cannot be looked for: the name has no written form, or has one and holds
a null character. -/
inductive Unsought (files : Files) (name : Text) : Fault → Prop where
  | unnamed {reason : Text} (hfile : files name = .error (.unnamed reason)) :
      Unsought files name (.defect ⟨"UnicodeEncodeError", reason⟩)
  | null (hnamed : ∀ reason, files name ≠ .error (.unnamed reason))
      (hnull : Char.ofNat 0 ∈ name) : Unsought files name (.value .nullInPath)

/-- The file at a path can be read. -/
def Readable (files : Files) (path : Text) : Prop :=
  Char.ofNat 0 ∉ shown path ∧ ∃ text, files.read (shown path) = .ok text

/-- Each file at one of some paths, once, with its text. The files are in the order in which they
are named first. -/
structure Reads (files : Files) (paths : List Text) (documents : List (Text × Text)) : Prop where
  names : documents.map Prod.fst = (paths.map shown).eraseDups
  texts : ∀ d ∈ documents, files.read d.1 = .ok d.2

section Files

variable {files : Files}

end Files

/-- No name of a rule was lost, and all of them are known. -/
def AllKnown (request : Request) : Prop :=
  ∀ name ∈ request.rules, ∃ known, name = some known ∧ Known known

/-- A request has been worked on: each file was linted once by the rules of its names. -/
structure Works [Host] (files : Files) (site : Site) (request : Request) (names : List Text)
    (documents : List (Text × Text)) (found : Lint.Outcome) (results : List (Text × List Entry)) :
    Prop where
  named : request.rules = names.map some
  reads : Reads files request.paths documents
  lint : Lint.lint site (chosenRules names) (config request) documents = some found
  results : found.results = .ok results

/-- What breaks a run. -/
inductive Breaks [Host] (files : Files) (site : Site) (screen : Screen) (request : Request) :
    Fault → Prop where
  | lostRule (hlost : none ∈ request.rules) : Breaks files site screen request (.value .lostRule)
  /-- The first path that cannot be read cannot even be looked for. -/
  | unsought {before behind : List Text} {path : Text} {fault : Fault} (hknown : AllKnown request)
      (hpaths : request.paths = before ++ path :: behind)
      (hbefore : ∀ p ∈ before, Readable files p) (hpath : Unsought files (shown path) fault) :
      Breaks files site screen request fault
  /-- The run could do its work, but does not know how to show it. -/
  | lostFormat (hknown : AllKnown request) (hpaths : ∀ p ∈ request.paths, Readable files p)
      (hformat : request.format = none) : Breaks files site screen request (.value .lostFormat)
  /-- The run has done its work, and a report cannot be shown. -/
  | hidden {names : List Text} {format : Format} {documents : List (Text × Text)}
      {found : Lint.Outcome} {results : List (Text × List Entry)} {before behind : List Text}
      {report : Text} {refusal : Defect} (hknown : AllKnown request)
      (hpaths : ∀ p ∈ request.paths, Readable files p) (hformat : request.format = some format)
      (hworks : Works files site request names documents found results)
      (hreports : reports { format, color := screen.color } results = before ++ report :: behind)
      (hbefore : ∀ r ∈ before, screen.refusal? r = none)
      (hreport : screen.refusal? report = some refusal) :
      Breaks files site screen request (.defect refusal)

section Works

variable {files : Files} {site : Site} {request : Request}

end Works

section Serve

variable (files : Files) {request : Request}

variable {files}

variable {site : Site}

end Serve

def bytesOf (t : Text) : List UInt8 :=
  t.map fun c => UInt8.ofNat c.toNat

def Ending.exit? : Ending → Option Nat
  | .done outcome => some outcome.exit
  | _ => none

section

open scoped Host.Usual

end

end CommandLine
end FragmentLint
