import FragmentLint.Failure.FreeText
import FragmentLint.Failure.Structured
import FragmentLint.Fragment.Extractor
import FragmentLint.Validation.Precheck
import FragmentLint.Validation.Verdict

/-!
# From verdicts to findings

A family tells how a failure of its parser becomes a diagnostic, which context stands in
for a missing one, and whether the checks without a parser apply. A diagnosis that gives
nothing is replaced by one that quotes the failure, so a failing fragment always has a
finding.
-/

namespace FragmentLint

/-- How the failures of one family become findings. -/
structure Pipeline where
  family : Family
  /-- The diagnostic for a failure of a piece of code, if one can be made. -/
  diagnose : Failure → Text → Option Diagnostic
  /-- The context for a diagnostic that has none. -/
  fallback : Text → Option Text
  /-- Whether the checks without a parser apply. -/
  hasBasic : Bool

namespace Pipeline

/-- The diagnostic for a failure of a piece of code, and what was noted. -/
def diagnosis (p : Pipeline) (failure : Failure) (code : Text) : Diagnostic × List Notice :=
  match p.diagnose failure code with
  | some d => (d, [])
  | none => (Template.unknownFailureFormat failure.message, [.diagnosisBroke p.family])

/-- The finding for a verdict on a trimmed fragment, and what was noted. -/
def judge (p : Pipeline) (parser : Text) (f : Fragment) (v : Verdict) :
    Option Finding × List Notice :=
  match v.failure? with
  | none => (none, v.notices parser)
  | some failure =>
    let (d, noted) := p.diagnosis failure f.code
    (some (d.anchor f.start (p.fallback f.code)), v.notices parser ++ noted)

end Pipeline

namespace Family

def pipeline : Family → Pipeline
  | .mermaid =>
    { family := .mermaid
      diagnose := fun failure code => (FreeText.diagnose failure.message code).toOption
      fallback := FreeText.fallbackContext
      hasBasic := true }
  | .math =>
    { family := .math
      diagnose := fun failure code => some (Structured.diagnose failure code)
      fallback := fun _ => none
      hasBasic := false }

end Family

end FragmentLint
