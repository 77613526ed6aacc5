/-!
# Runs of code points

A property of characters is listed as its runs of consecutive code points. A run is
given by its first and its last member.
-/

namespace FragmentLint.Text

def inRuns (runs : List (Nat × Nat)) (n : Nat) : Bool :=
  runs.any fun run => run.1 ≤ n && n ≤ run.2

theorem inRuns_iff {runs : List (Nat × Nat)} {n : Nat} :
    inRuns runs n = true ↔ ∃ run ∈ runs, run.1 ≤ n ∧ n ≤ run.2 := by
  simp [inRuns]

end FragmentLint.Text
