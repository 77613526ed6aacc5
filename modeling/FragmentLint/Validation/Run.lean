import FragmentLint.Rule.Options
import FragmentLint.Validation.Pipeline

/-!
# Runs over fragments

A run leads the fragments of one family through the checks and tells what happened, in
order: which codes the parser was asked about, what was noted and which findings were
reported.

With a parser that answers one piece of code at a time, each finding is reported at once.
With a parser that may have several pieces under way, all of them are handed over first.
Each fragment has a slot, which waits until its verdict arrives, and verdicts may arrive
in any order. Only when no slot waits are the findings reported, in the order of the
fragments. A run that waits for a verdict that never arrives has no outcome.
-/

namespace FragmentLint

/-- What happens in a run. -/
inductive Event where
  /-- The parser is asked about a piece of code. -/
  | call (code : Text)
  | notice (n : Notice)
  | report (f : Finding)
  deriving DecidableEq, Repr

namespace Event

def code? : Event → Option Text
  | .call code => some code
  | _ => none

def notice? : Event → Option Notice
  | .notice n => some n
  | _ => none

def finding? : Event → Option Finding
  | .report f => some f
  | _ => none

end Event

namespace Pipeline

/-- What is wrong with a fragment as far as can be told without the parser. -/
def basicFinding (p : Pipeline) (f : Fragment) : Option Finding :=
  match Precheck.notEmpty p.family f with
  | .error finding => some finding
  | .ok trimmed => Precheck.entryPoint trimmed

def runBasic (p : Pipeline) (fragments : List Fragment) : List Event :=
  (fragments.filterMap p.basicFinding).map .report

/-- A run with a parser that is asked about one fragment after another. -/
def runSync {σ : Type} (p : Pipeline) (c : Checker σ) :
    List Fragment → σ → Option (List Event × σ)
  | [], s => some ([], s)
  | f :: fragments, s =>
    match Precheck.notEmpty p.family f with
    | .error finding => do
      let (events, s) ← runSync p c fragments s
      return (.report finding :: events, s)
    | .ok trimmed => do
      let answer ← c.check trimmed.code s
      let (finding, noted) := p.judge c.name trimmed answer.verdict
      let (events, s) ← runSync p c fragments answer.state
      return (.call trimmed.code :: (answer.notices ++ noted).map .notice ++
        finding.toList.map .report ++ events, s)

/-- What is known about a fragment that was handed over. -/
inductive Slot where
  /-- The verdict on a trimmed fragment has not arrived. -/
  | waiting (trimmed : Fragment)
  /-- The fragment is done, with or without a finding. -/
  | settled (finding : Option Finding)
  deriving DecidableEq, Repr

/-- The slot of a fragment. Only a fragment that is not blank waits for a verdict. -/
def slot (p : Pipeline) (f : Fragment) : Slot :=
  match Precheck.notEmpty p.family f with
  | .error finding => .settled (some finding)
  | .ok trimmed => .waiting trimmed

def Slot.code? : Slot → Option Text
  | .waiting trimmed => some trimmed.code
  | .settled _ => none

/-- The verdict for a slot, with what the parser noted before. -/
structure Arrival where
  slot : Nat
  verdict : Verdict
  notices : List Notice := []

/-- The slots after an arrival, and what was noted. An arrival for no waiting slot is
ignored. -/
def arrive (p : Pipeline) (parser : Text) (slots : List Slot) (a : Arrival) :
    List Slot × List Notice :=
  match slots[a.slot]? with
  | some (.waiting trimmed) =>
    let (finding, noted) := p.judge parser trimmed a.verdict
    (slots.set a.slot (.settled finding), a.notices ++ noted)
  | _ => (slots, a.notices)

/-- The slots after several arrivals, and what was noted. -/
def arriveAll (p : Pipeline) (parser : Text) : List Slot → List Arrival → List Slot × List Notice
  | slots, [] => (slots, [])
  | slots, a :: arrivals =>
    let (slots, noted) := p.arrive parser slots a
    let (slots, more) := arriveAll p parser slots arrivals
    (slots, noted ++ more)

/-- The findings in the slots, once none of them waits. -/
def findings? : List Slot → Option (List Finding)
  | [] => some []
  | .waiting _ :: _ => none
  | .settled finding :: slots => (findings? slots).map (finding.toList ++ ·)

/-- A run with verdicts that arrive in a given order. Without a verdict for each slot it has
no outcome. -/
def gather (p : Pipeline) (parser : Text) (fragments : List Fragment)
    (arrivals : List Arrival) : Option (List Event) :=
  let slots := fragments.map p.slot
  let (after, noted) := p.arriveAll parser slots arrivals
  (findings? after).map fun found =>
    (slots.filterMap Slot.code?).map .call ++ noted.map .notice ++ found.map .report

/-- The arrivals for slots that a parser serves in their order, counted from a number. -/
def serve {σ : Type} (c : Checker σ) : Nat → List Slot → σ → Option (List Arrival × σ)
  | _, [], s => some ([], s)
  | n, .settled _ :: slots, s => serve c (n + 1) slots s
  | n, .waiting trimmed :: slots, s => do
    let answer ← c.check trimmed.code s
    let (arrivals, s) ← serve c (n + 1) slots answer.state
    return (⟨n, answer.verdict, answer.notices⟩ :: arrivals, s)

/-- A run with a parser that has all fragments under way and serves them in their order. -/
def runFull {σ : Type} (p : Pipeline) (c : Checker σ) (fragments : List Fragment) (s : σ) :
    Option (List Event × σ) := do
  let (arrivals, s) ← serve c 0 (fragments.map p.slot) s
  let events ← p.gather c.name fragments arrivals
  return (events, s)

/-- A run in a mode. A family without checks of its own is run in full in every mode. -/
def run {σ : Type} (p : Pipeline) (c : Checker σ) (mode : Mode) (fragments : List Fragment)
    (s : σ) : Option (List Event × σ) :=
  if mode = .basic ∧ p.hasBasic then some (p.runBasic fragments, s)
  else if c.concurrent then p.runFull c fragments s
  else p.runSync c fragments s

end Pipeline

end FragmentLint
