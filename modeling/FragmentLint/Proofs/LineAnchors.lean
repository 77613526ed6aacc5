import FragmentLint.Proofs.Visits

/-!
# On which line a failing formula is reported

A parser is asked about trimmed code, and the place at which it fails counts from the first
character that trimming leaves. The report counts from the line on which the fragment starts.
Between the two lie the blanks that were taken off the start of the code, and no one counts the
line feeds among them: the report is too high by just as many lines.
-/
namespace FragmentLint

namespace Text

theorem newlines_eq_zero_iff {t : Text} : newlines t = 0 ↔ '\n' ∉ t :=
  List.count_eq_zero

end Text

namespace Fragment

/-- The blanks that trimming takes off the start of the code. -/
def lead (f : Fragment) : Text :=
  f.code.takeWhile Text.isBlank

/-- Trimming leaves the character at a place in the code. -/
def Survives (f : Fragment) (place : Nat) : Prop :=
  f.lead.length ≤ place ∧ place < f.lead.length + f.trimmed.code.length

instance (f : Fragment) (place : Nat) : Decidable (f.Survives place) :=
  inferInstanceAs (Decidable (_ ∧ _))

/-- The failure at a place in the code, as a parser of the trimmed code tells it. -/
def failureAt (f : Fragment) (message : Text) (place : Nat) : Failure :=
  { message, position := some (Int.ofNat (place - f.lead.length)), structured := true }

/-- What stands in front of a place that survives: the blanks that are taken off, and the trimmed
code up to where its parser sees that place. -/
theorem take_of_survives {f : Fragment} {place : Nat} (h : f.Survives place) :
    f.code.take place = f.lead ++ f.trimmed.code.take (place - f.lead.length) := by
  obtain ⟨hlead, hplace⟩ := h
  obtain ⟨tail, hcode⟩ := Text.eq_append_trim f.code
  have hsplit : f.code = f.lead ++ (f.trimmed.code ++ tail) := by
    rw [← List.append_assoc]
    exact hcode
  have hinside : place - f.lead.length ≤ f.trimmed.code.length := by omega
  rw [hsplit, List.take_append, List.take_of_length_le hlead,
    List.take_append_of_le_length hinside]

theorem asked?_of_survives {f : Fragment} {place : Nat} (h : f.Survives place) :
    f.asked? = some f.trimmed.code := by
  refine asked?_eq_some_iff.mpr ⟨rfl, ?_⟩
  intro hnil
  obtain ⟨hlead, hplace⟩ := h
  rw [hnil] at hplace
  exact absurd hplace (Nat.not_lt.mpr hlead)

end Fragment

namespace Structured

theorem depth_diagnose {message code : Text} {offset : Nat} :
    (diagnose { message, position := some (Int.ofNat offset), structured := true } code).depth =
      Position.lineOffset code offset := by
  simp [diagnose, position?, Template.positionalStructuredFailure, Diagnostic.depth, Line.first]

end Structured

namespace Pipeline

variable {σ : Type} {c : Checker σ} {s t u : σ}

/-- What a run does about a formula that its parser rejects. -/
theorem runSync_cons_of_rejected {f : Fragment} {code : Text} {fragments : List Fragment}
    {answer : Checked σ} {failure : Failure} {others : List Event}
    (hasked : f.asked? = some code) (hcheck : c.check code s = some answer)
    (hrejected : answer.verdict = .rejected failure)
    (hrest : Family.math.pipeline.runSync c fragments answer.state = some (others, t)) :
    Family.math.pipeline.runSync c (f :: fragments) s =
      some (.call code :: answer.notices.map .notice ++
        [.report ((Structured.diagnose failure code).anchor f.start none)] ++ others, t) := by
  obtain ⟨hok, rfl⟩ := f.notEmpty_of_asked Family.math.pipeline.family hasked
  have hjudge : Family.math.pipeline.judge c.name f.trimmed answer.verdict =
      (some ((Structured.diagnose failure f.trimmed.code).anchor f.start none), []) := by
    rw [hrejected]
    rfl
  simp [runSync, hok, hcheck, hjudge, hrest]

def indented : Fragment := ⟨"  x\ny", Line.first⟩

/-- A formula of one line, with an empty line in front of it. -/
def lowered : Fragment := ⟨"\nx\n", Line.first⟩

/-- A parser that rejects every formula with the same failure. -/
def rejecting (failure : Failure) : Checker Unit :=
  Checker.ofVerdicts "katex" false fun _ => .rejected failure

/-- A formula whose parser fails at a place in its code is reported on the line of that place,
less the line feeds among the blanks that were taken off in front of it. -/
theorem line_of_failure {f : Fragment} {before after : List Fragment} {earlier later : List Event}
    {answer : Checked σ} {message : Text} {place : Nat}
    (hearlier : Family.math.pipeline.runSync c before s = some (earlier, u))
    (hsurvives : f.Survives place)
    (hcheck : c.check f.trimmed.code u = some answer)
    (hfails : answer.verdict = .rejected (f.failureAt message place))
    (hlater : Family.math.pipeline.runSync c after answer.state = some (later, t)) :
    ∃ finding, Family.math.pipeline.runSync c (before ++ f :: after) s =
        some (earlier ++ (.call f.trimmed.code :: answer.notices.map .notice ++
          [.report finding] ++ later), t) ∧
      finding.line.number + Text.newlines f.lead =
        f.start.number + Text.newlines (f.code.take place) ∧
      (finding.line.number = f.start.number + Text.newlines (f.code.take place) ↔
        '\n' ∉ f.lead) := by
  have hrun := runSync_cons_of_rejected (Fragment.asked?_of_survives hsurvives) hcheck hfails hlater
  have hline : ((Structured.diagnose (f.failureAt message place) f.trimmed.code).anchor f.start
        none).line.number + Text.newlines f.lead =
      f.start.number + Text.newlines (f.code.take place) := by
    rw [Diagnostic.number_line_anchor, Fragment.failureAt, Structured.depth_diagnose,
      Position.lineOffset, Fragment.take_of_survives hsurvives, Text.newlines_append]
    omega
  refine ⟨_, runSync_append hearlier hrun, hline, ?_⟩
  rw [← Text.newlines_eq_zero_iff]
  omega

theorem line_of_failure_indented : ∃ finding,
    Family.math.pipeline.runSync (rejecting (indented.failureAt "bad" 4)) [indented] () =
      some ([.call "x\ny", .report finding], ()) ∧
    finding.line.number = 2 := by
  have hnothing : Family.math.pipeline.runSync (rejecting (indented.failureAt "bad" 4)) [] () =
      some ([], ()) := rfl
  have hcheck : (rejecting (indented.failureAt "bad" 4)).check indented.trimmed.code () =
      some ⟨.rejected (indented.failureAt "bad" 4), [], ()⟩ := rfl
  have hsurvives : indented.Survives 4 := by decide
  obtain ⟨finding, hrun, -, hline⟩ := line_of_failure hnothing hsurvives hcheck rfl hnothing
  exact ⟨finding, hrun, hline.mpr (by decide)⟩

/-- A failure on the second line of a formula is reported on the first, because the first line is
empty. -/
theorem lowered_failure_reported_above : ∃ finding,
    lowered.Survives 1 ∧
    Family.math.pipeline.runSync (rejecting (lowered.failureAt "bad" 1)) [lowered] () =
      some ([.call "x", .report finding], ()) ∧
    finding.line.number = 1 ∧
    lowered.start.number + Text.newlines (lowered.code.take 1) = 2 := by
  exact ⟨_, by decide, rfl, rfl, rfl⟩

end Pipeline

end FragmentLint
