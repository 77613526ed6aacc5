import FragmentLint.Diagnostic.Basic
import FragmentLint.Rule.Basic

/-!
# Report entries

An entry is a finding with the names of the rule that made it. The library makes entries
from findings, whose lines lie in the document; an entry handed in from outside may claim
any line.
-/

namespace FragmentLint

structure Entry where
  names : RuleNames
  line : Int
  message : Text
  hint : Option Text := none
  context : Option Text := none
  code : Option Code := none
  deriving DecidableEq, Repr

namespace Entry

def ofFinding (names : RuleNames) (f : Finding) : Entry :=
  ⟨names, f.line.number, f.message, f.hint, f.context, f.code⟩

def detail (e : Entry) : Text :=
  joinDetail e.message e.hint

@[simp] theorem detail_ofFinding (names : RuleNames) (f : Finding) :
    (ofFinding names f).detail = f.detail := rfl

end Entry

end FragmentLint
