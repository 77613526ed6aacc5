import FragmentLint.Lint.Enabled
import FragmentLint.Markdown.Blocks
import FragmentLint.Parser.Diagram
import FragmentLint.Parser.Formula
import FragmentLint.Report.Entry
import FragmentLint.Validation.Run

/-!
# Linting documents

Each document is cut into block tokens once, and every rule that is enabled checks the
fragments of its family in them. The entries of a document are in the order of their lines;
on one line, in the order of the rules and of the fragments.

All documents share one session for diagrams. It is closed at the end, so a run leaves
nothing behind for the next one.
-/

namespace FragmentLint

namespace Rule

def run {σ : Type} (r : Rule) (options : Options) (c : Checker σ) (tokens : List (Token Line))
    (s : σ) : Option (List Event × σ) :=
  r.family.pipeline.run c options.mode (r.family.extractor.fragments tokens) s

def entries (r : Rule) (events : List Event) : List Entry :=
  (events.filterMap Event.finding?).map (Entry.ofFinding r.names)

def checker [Host] (r : Rule) (site : Site) (options : Options) : Checker (Shared World) :=
  match r.family with
  | .mermaid => Diagram.checker site.keeper
  | .math =>
    let c := Formula.checker site options
    ⟨c.name, c.concurrent, fun code s => (c.check code s.world).map fun answer =>
      ⟨answer.verdict, answer.notices, { s with world := answer.state }⟩⟩

end Rule

namespace Lint

structure Outcome where
  /-- The entries for each document, in order. -/
  results : Except Fault (List (Text × List Entry))
  notices : List Notice
  world : World

/-- What the rules report about the tokens of a document, rule after rule. -/
def runRules [Host] (site : Site) (tokens : List (Token Line)) :
    List (Rule × Options) → Shared World →
    Option (List Entry × List Notice × Shared World)
  | [], s => some ([], [], s)
  | (r, options) :: rules, s => do
    let (events, s) ← r.run options (r.checker site options) tokens s
    let (entries, noted, s) ← runRules site tokens rules s
    return (r.entries events ++ entries, events.filterMap Event.notice? ++ noted, s)

/-- Entries in the order of their lines. Entries of one line keep their order. -/
def sorted (entries : List Entry) : List Entry :=
  entries.mergeSort fun a b => a.line ≤ b.line

/-- What the rules report about documents, one after another. -/
def runDocuments [Host] (site : Site) (rules : List (Rule × Options)) :
    List (Text × Text) → Shared World →
    Option (List (Text × List Entry) × List Notice × Shared World)
  | [], s => some ([], [], s)
  | (name, text) :: documents, s => do
    let (entries, noted, s) ← runRules site (Markdown.tokenize text) rules s
    let (results, more, s) ← runDocuments site rules documents s
    return ((name, sorted entries) :: results, noted ++ more, s)

def closeRules [Host] (site : Site) : List (Rule × Options) → Shared World →
    Option (Except Fault Unit × List Notice × Shared World)
  | [], s => some (.ok (), [], s)
  | (r, _) :: rules, s =>
    if r.closes then
      match s.close site.keeper with
      | (none, _, _) => none
      | (some (.error fault), noted, s) => some (.error fault, noted, s)
      | (some (.ok ()), noted, s) => do
        let (outcome, more, s) ← closeRules site rules s
        return (outcome, noted ++ more, s)
    else closeRules site rules s

/-- The outcome of linting documents with rules at a site. A configuration that makes no
sense is a fault before anything else is done. -/
def lint [Host] (site : Site) (rules : List Rule) (config : Json.Members)
    (documents : List (Text × Text)) : Option Outcome :=
  match Rule.enabled config rules with
  | .error fault => some ⟨.error (.config fault), [], {}⟩
  | .ok enabled => do
    let (results, noted, s) ← runDocuments site enabled documents { world := {} }
    let (closed, more, s) ← closeRules site enabled s
    return ⟨closed.map fun () => results, noted ++ more, s.world⟩

end Lint

end FragmentLint
