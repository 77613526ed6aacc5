import FragmentLint.Failure.Basic
import FragmentLint.Notice

/-!
# Verdicts

A parser accepts a piece of code, rejects it with a failure, or breaks down. A parser that
breaks down counts as a failure that names what went wrong, so the fragment is reported
all the same.
-/

namespace FragmentLint

/-- What went wrong where nothing should: its kind and its text. -/
structure Defect where
  kind : Text
  text : Text
  deriving DecidableEq, Repr

namespace Defect

def failure (d : Defect) : Failure :=
  { message := d.kind ++ ": " ++ d.text }

end Defect

/-- What a parser says about a piece of code. -/
inductive Verdict where
  | accepted
  | rejected (failure : Failure)
  | broke (defect : Defect)
  deriving DecidableEq, Repr

namespace Verdict

def failure? : Verdict → Option Failure
  | .accepted => none
  | .rejected f => some f
  | .broke d => some d.failure

/-- What an operator should know about a verdict of a given parser. -/
def notices (parser : Text) : Verdict → List Notice
  | .broke _ => [.parserBroke parser]
  | _ => []

end Verdict

/-- A verdict, what was noted on the way, and the state it left. -/
structure Checked (σ : Type) where
  verdict : Verdict
  notices : List Notice
  state : σ

/-- A parser that can be asked about pieces of code, with a state of its own. A parser that
never answers gives no verdict. -/
structure Checker (σ : Type) where
  /-- The name of the parser. -/
  name : Text
  /-- Whether several pieces of code may be under way at once. -/
  concurrent : Bool
  check : Text → σ → Option (Checked σ)

namespace Checker

/-- The parser without a state that gives each piece of code a fixed verdict. -/
def ofVerdicts (name : Text) (concurrent : Bool) (verdict : Text → Verdict) : Checker Unit :=
  ⟨name, concurrent, fun code s => some ⟨verdict code, [], s⟩⟩

end Checker

end FragmentLint
