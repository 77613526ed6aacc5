import FragmentLint.Bridge.Fault

/-!
# The shared session

All callers share one session. The first of them starts it; what came of the start, a
session or a fault, is kept and handed to every later caller until the session is closed.
A session belongs to the event loop in which it was started. In another loop it can only
be killed, and the next caller there starts a new one.

How sessions are started, closed and killed is left to a keeper with a state of its own.
Sessions are known by the numbers that the keeper gives them.
-/

namespace FragmentLint

/-- What came of starting a session. -/
inductive Startup where
  /-- The start has not come to an end. -/
  | pending
  | failed (fault : Fault)
  /-- The session of a given number is up. -/
  | live (session : Nat)
  deriving Inhabited

/-- What starts, asks, closes and kills sessions, with a state of its own. A session that
never answers gives no answer. -/
structure Keeper (ω : Type) where
  start : ω → Startup × List Notice × ω
  request : Nat → Json.Members → ω → Option (Except Fault Json.Members × ω)
  close : Nat → ω → List Notice × ω
  kill : Nat → ω → ω

/-- A start-up that is kept, with the loop in which it was made. -/
structure Memo where
  loop : Nat
  startup : Startup

/-- The shared session as it stands: the current loop, the start-up that is kept, and the
state of the keeper. -/
structure Shared (ω : Type) where
  loop : Nat := 0
  memo : Option Memo := none
  world : ω

namespace Shared

variable {ω : Type}

def started (s : Shared ω) : Bool :=
  s.memo.isSome

/-- The start-up that is kept for the current loop. -/
def current? (s : Shared ω) : Option Startup :=
  match s.memo with
  | some memo => if memo.loop = s.loop then some memo.startup else none
  | none => none

/-- The session of a start-up, killed because its loop is gone. A start-up that has no
session needs nothing. -/
def abandon (k : Keeper ω) (startup : Startup) (w : ω) : List Notice × ω :=
  match startup with
  | .live n => ([.strayed], k.kill n w)
  | _ => ([], w)

/-- The start-up that a caller finds or makes, with what was noted. -/
def begin (k : Keeper ω) (s : Shared ω) : Startup × List Notice × Shared ω :=
  match s.current? with
  | some startup => (startup, [], s)
  | none =>
    let (left, w) := match s.memo with
      | some memo => abandon k memo.startup s.world
      | none => ([], s.world)
    let (startup, noted, w) := k.start w
    (startup, left ++ noted, { s with memo := some ⟨s.loop, startup⟩, world := w })

/-- What a start-up gives a caller that waits for it, if it has come to an end. -/
def outcome? : Startup → Option (Except Fault Nat)
  | .pending => none
  | .failed fault => some (.error fault)
  | .live n => some (.ok n)

/-- The session for a caller, started if need be. There is none as long as a start-up has
not come to an end. -/
def session (k : Keeper ω) (s : Shared ω) : Option (Except Fault Nat) × List Notice × Shared ω :=
  let (startup, noted, s) := begin k s
  (outcome? startup, noted, s)

def sessions (k : Keeper ω) : Nat → Shared ω →
    List (Option (Except Fault Nat)) × List Notice × Shared ω
  | 0, s => ([], [], s)
  | n + 1, s =>
    let (first, noted, s) := session k s
    let (others, more, s) := sessions k n s
    (first :: others, noted ++ more, s)

/-- What a caller sees that is cancelled before anything new can happen. -/
inductive Cancelled where
  /-- The session was up already. -/
  | finished
  /-- The caller was cancelled; the start-up was not. -/
  | cancelled
  /-- The start-up had failed already. -/
  | failed (fault : Fault)

/-- A caller that is cancelled. A start-up that it made goes on without it. -/
def cancel (k : Keeper ω) (s : Shared ω) : Cancelled × List Notice × Shared ω :=
  let seen : Cancelled := match s.current? with
    | some (.live _) => .finished
    | some (.failed fault) => .failed fault
    | _ => .cancelled
  let (_, noted, s) := begin k s
  (seen, noted, s)

/-- The next event loop. What was started in the last one is out of reach. -/
def nextLoop (s : Shared ω) : Shared ω :=
  { s with loop := s.loop + 1 }

/-- The shared session closed, in its own loop, or killed from another one. A start-up that
failed needs no closing, but a fault that is none of a bridge is raised again. Closing
does not end while a start-up has not. -/
def close (k : Keeper ω) (s : Shared ω) : Option (Except Fault Unit) × List Notice × Shared ω :=
  let cleared : Shared ω := { s with memo := none }
  match s.memo with
  | none => (some (.ok ()), [], cleared)
  | some memo =>
    if memo.loop = s.loop then
      match memo.startup with
      | .pending => (none, [], cleared)
      | .failed (.bridge _) => (some (.ok ()), [], cleared)
      | .failed fault => (some (.error fault), [], cleared)
      | .live n =>
        let (noted, w) := k.close n s.world
        (some (.ok ()), noted, { cleared with world := w })
    else
      let (noted, w) := abandon k memo.startup s.world
      (some (.ok ()), noted, { cleared with world := w })

end Shared

end FragmentLint
