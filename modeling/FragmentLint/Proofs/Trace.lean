/-!
# Courses of events

A system that several parties drive takes one step after another, and which one comes next is
not for the system to say. A course tells a state that it may reach, with the steps that led
there in order. What holds at the start and survives every step holds on every course.
-/
namespace FragmentLint

variable {σ μ : Type} {step : σ → μ → σ → Prop}

/-- The states that a system reaches, with the steps that led there. -/
inductive Course (step : σ → μ → σ → Prop) (start : σ) : List μ → σ → Prop where
  | start : Course step start [] start
  | next {ms : List μ} {m : μ} {t u : σ} : Course step start ms t → step t m u →
      Course step start (ms ++ [m]) u

namespace Course

theorem single {s t : σ} {m : μ} (h : step s m t) : Course step s [m] t := by
  have hnil : Course step s [] s := .start
  simpa using Course.next hnil h

theorem append {s t u : σ} {ms ns : List μ} (h : Course step s ms t) (h' : Course step t ns u) :
    Course step s (ms ++ ns) u := by
  induction h' with
  | start => simpa using h
  | next _ hstep ih =>
    rw [← List.append_assoc]
    exact .next ih hstep

theorem cons {s t u : σ} {m : μ} {ms : List μ} (h : step s m t) (h' : Course step t ms u) :
    Course step s (m :: ms) u :=
  (single h).append h'

/-- A property of states that every step preserves holds at the end of a course if it holds at
its start. -/
theorem preserves {P : σ → Prop} (hstep : ∀ s m t, P s → step s m t → P t) {s t : σ}
    {ms : List μ} (h : Course step s ms t) (hs : P s) : P t := by
  induction h with
  | start => exact hs
  | next _ hnext ih => exact hstep _ _ _ ih hnext

end Course

end FragmentLint
