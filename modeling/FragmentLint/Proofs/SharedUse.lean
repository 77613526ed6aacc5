import FragmentLint.Parser.Site

/-!
# The shared session in use

The shared session is used through any sequence of acts: callers that come alone or together,
callers that are cancelled, closing, changes of the loop and of whatever starts the sessions,
and start-ups that end late. What an act does is said here once, for whatever keeps the sessions.

The record of epochs and callers is kept for the statements only; no act looks at it but to
find the callers who wait for a start-up that ends.
-/
namespace FragmentLint

namespace Shared

variable {ω : Type} {k : Keeper ω} {s : Shared ω}

theorem current?_eq_some_iff {startup : Startup} :
    s.current? = some startup ↔ s.memo = some ⟨s.loop, startup⟩ := by
  unfold current?
  cases hmemo : s.memo with
  | none => simp
  | some memo =>
    obtain ⟨loop, kept⟩ := memo
    by_cases hloop : loop = s.loop
    · simp [hloop]
    · simp [hloop]

theorem outcome?_eq_none_iff {startup : Startup} :
    outcome? startup = none ↔ startup = .pending := by
  cases startup <;> simp [outcome?]

theorem failed_of_outcome? {startup : Startup} {fault : Fault}
    (h : outcome? startup = some (.error fault)) : startup = .failed fault := by
  cases startup with
  | pending => cases h
  | failed found => simpa [outcome?] using h
  | live n => cases h

theorem live_of_outcome? {startup : Startup} {i : Nat} (h : outcome? startup = some (.ok i)) :
    startup = .live i := by
  cases startup with
  | pending => cases h
  | failed fault => cases h
  | live n => simpa [outcome?] using h

theorem begin_of_some {startup : Startup} (h : s.current? = some startup) :
    begin k s = (startup, [], s) := by
  simp [begin, h]

theorem session_of_some {startup : Startup} (h : s.current? = some startup) :
    s.session k = (outcome? startup, [], s) := by
  rw [session, begin_of_some h]

/-- The keeper's world when a start-up begins: what was kept for another loop is abandoned. -/
def cleared (k : Keeper ω) (s : Shared ω) : ω :=
  match s.memo with
  | some memo => (abandon k memo.startup s.world).2
  | none => s.world

theorem begin_of_none (h : s.current? = none) :
    (begin k s).1 = (k.start (cleared k s)).1 ∧
      (begin k s).2.2 = { s with
        memo := some ⟨s.loop, (k.start (cleared k s)).1⟩
        world := (k.start (cleared k s)).2.2 } := by
  cases hmemo : s.memo <;> simp [begin, cleared, h, hmemo]

theorem loop_begin : (begin k s).2.2.loop = s.loop := by
  cases h : s.current? with
  | some startup => rw [begin_of_some h]
  | none => rw [(begin_of_none h).2]

theorem memo_begin : (begin k s).2.2.memo = some ⟨s.loop, (begin k s).1⟩ := by
  cases h : s.current? with
  | some startup =>
    rw [begin_of_some h]
    exact current?_eq_some_iff.mp h
  | none =>
    obtain ⟨hstartup, hstate⟩ := begin_of_none (k := k) h
    rw [hstate, hstartup]

theorem begin_begin : begin k (begin k s).2.2 = ((begin k s).1, [], (begin k s).2.2) := by
  apply begin_of_some
  rw [current?_eq_some_iff, loop_begin]
  exact memo_begin

/-- Callers who come together get the same, and leave what the first of them leaves. -/
theorem sessions_succ (n : Nat) :
    (sessions k (n + 1) s).1 = List.replicate (n + 1) (outcome? (begin k s).1) ∧
      (sessions k (n + 1) s).2.2 = (begin k s).2.2 := by
  induction n generalizing s with
  | zero => exact ⟨rfl, rfl⟩
  | succ n ih =>
    obtain ⟨houtcomes, hstate⟩ := ih (s := (begin k s).2.2)
    rw [begin_begin] at houtcomes hstate
    constructor
    · rw [List.replicate_succ, ← houtcomes]
      rfl
    · rw [← hstate]
      rfl

theorem begin_of_cancel {fault : Fault} (h : (cancel k s).1 = .failed fault) :
    (begin k s).1 = .failed fault := by
  simp only [cancel] at h
  cases hcurrent : s.current? with
  | none => simp [hcurrent] at h
  | some startup =>
    rw [begin_of_some hcurrent]
    cases startup with
    | pending => simp [hcurrent] at h
    | live n => simp [hcurrent] at h
    | failed f => simpa [hcurrent] using h

/-- What is left of the keeper's world when a start-up begins. -/
theorem cleared_cases (k : Keeper ω) (s : Shared ω) :
    cleared k s = s.world ∨ ∃ n, cleared k s = k.kill n s.world := by
  unfold cleared
  cases s.memo with
  | none => exact .inl rfl
  | some memo =>
    obtain ⟨loop, startup⟩ := memo
    cases startup with
    | pending => exact .inl rfl
    | failed fault => exact .inl rfl
    | live n => exact .inr ⟨n, rfl⟩

/-- Nothing is kept after closing; a session at most was closed or killed. -/
theorem close_cases (k : Keeper ω) (s : Shared ω) :
    ∃ w, (close k s).2.2 = { s with memo := none, world := w } ∧
      (w = s.world ∨ (∃ n, w = (k.close n s.world).2) ∨ ∃ n, w = k.kill n s.world) := by
  unfold close
  cases s.memo with
  | none => exact ⟨s.world, rfl, .inl rfl⟩
  | some memo =>
    obtain ⟨loop, startup⟩ := memo
    by_cases hloop : loop = s.loop
    · simp only [hloop, if_true]
      cases startup with
      | pending => exact ⟨s.world, rfl, .inl rfl⟩
      | live n => exact ⟨_, rfl, .inr (.inl ⟨n, rfl⟩)⟩
      | failed fault => cases fault <;> exact ⟨s.world, rfl, .inl rfl⟩
    · simp only [hloop, if_false]
      cases startup with
      | pending => exact ⟨s.world, rfl, .inl rfl⟩
      | failed fault => exact ⟨s.world, rfl, .inl rfl⟩
      | live n => exact ⟨_, rfl, .inr (.inr ⟨n, rfl⟩)⟩

end Shared

/-- What starts sessions, as it stands: the settings that hold, how a session is started under
given settings, and how many were. -/
structure Factory (ω : Type) where
  settings : Except BridgeFault Settings
  make : Settings → ω → Startup × List Notice × ω
  starts : Nat := 0
  world : ω

namespace Factory

variable {ω : Type}

/-- A session is started if the settings are valid. -/
def start (f : Factory ω) : Startup × List Notice × Factory ω :=
  match f.settings with
  | .error fault => (.failed (.bridge fault), [], f)
  | .ok settings =>
    let (startup, noted, world) := f.make settings f.world
    (startup, noted, { f with starts := f.starts + 1, world })

def keeper (k : Keeper ω) : Keeper (Factory ω) where
  start := start
  request n payload f :=
    (k.request n payload f.world).map fun (answer, world) => (answer, { f with world })
  close n f :=
    let (noted, world) := k.close n f.world
    (noted, { f with world })
  kill n f := { f with world := k.kill n f.world }

/-- The sessions of a site are started by such a factory. -/
theorem start_site [Host] (site : Site) (n : Nat) (w : World) :
    let f := start ⟨site.settings?, site.startSession, n, w⟩
    site.start w = (f.1, f.2.1, f.2.2.world) := by
  simp only [start, Site.start]
  cases site.settings? <;> rfl

theorem starts_start (f : Factory ω) :
    f.start.2.2.starts = f.starts + if f.settings.isOk then 1 else 0 := by
  unfold start
  cases f.settings <;> rfl

theorem settings_start (f : Factory ω) : f.start.2.2.settings = f.settings := by
  unfold start
  cases h : f.settings with
  | error fault => exact h
  | ok settings => rfl

theorem cleared_keeper (k : Keeper ω) (s : Shared (Factory ω)) :
    (s.cleared (keeper k)).starts = s.world.starts ∧
      (s.cleared (keeper k)).settings = s.world.settings := by
  obtain hkept | ⟨n, hkilled⟩ := s.cleared_cases (keeper k)
  · rw [hkept]
    exact ⟨rfl, rfl⟩
  · rw [hkilled]
    exact ⟨rfl, rfl⟩

end Factory

/-- What may happen to a shared session and to what starts its sessions. -/
inductive Act (ω : Type) where
  /-- A caller comes. -/
  | session
  /-- Several callers come at once. -/
  | sessions (n : Nat)
  /-- A caller comes and is cancelled before anything new happens. -/
  | cancel
  /-- A caller who waits for the start-up of an epoch is cancelled. -/
  | leave (epoch : Nat)
  | close
  /-- Another loop runs from now on. -/
  | enter (loop : Nat)
  /-- From now on sessions are started in another way. -/
  | change (settings : Except BridgeFault Settings)
      (make : Settings → ω → Startup × List Notice × ω) (world : ω)
  /-- The start-up of an epoch comes to an end. -/
  | finish (epoch : Nat) (outcome : Except Fault Nat)

/-- The epochs, as far as they follow from the acts alone. -/
structure Clock where
  loop : Nat
  /-- The loop of the epoch that has not ended. -/
  current : Option Nat := none
  /-- How many epochs have begun. -/
  epochs : Nat := 0

namespace Clock

/-- A call belongs to the epoch that has not ended, if that is one of the loop that runs, and
begins an epoch otherwise. -/
def call (c : Clock) : Clock :=
  if c.current = some c.loop then c
  else { c with current := some c.loop, epochs := c.epochs + 1 }

def tick {ω : Type} (c : Clock) : Act ω → Clock
  | .session | .sessions (_ + 1) | .cancel => c.call
  | .close => { c with current := none }
  | .enter loop => { c with loop }
  | .sessions 0 | .leave _ | .change .. | .finish .. => c

end Clock

/-- What is known of an epoch: whether the settings were valid when it began, and what has
become of its start-up. -/
structure Epoch where
  valid : Bool
  startup : Startup

structure Usage (ω : Type) where
  shared : Shared (Factory ω)
  clock : Clock
  epochs : List Epoch := []
  /-- What callers got, each with the number of the epoch in which it came. -/
  seen : List (Nat × Except Fault Nat) := []
  /-- The callers who wait for a start-up, by the numbers of their epochs. -/
  waiting : List Nat := []

def Startup.ofOutcome : Except Fault Nat → Startup
  | .ok n => .live n
  | .error fault => .failed fault

def Shared.settle {ω : Type} (s : Shared ω) (startup : Startup) : Shared ω :=
  { s with memo := s.memo.map fun memo => { memo with startup } }

namespace Usage

variable {ω : Type}

def fresh (loop : Nat) (f : Factory ω) : Usage ω :=
  { shared := { loop, world := f }, clock := { loop } }

/-- The epochs once a caller came: in an epoch that has not ended nothing is added. -/
def epochsOfCall (k : Keeper ω) (u : Usage ω) : List Epoch :=
  if u.clock.current = some u.clock.loop then u.epochs
  else u.epochs ++ [⟨u.shared.world.settings.isOk, (u.shared.begin (Factory.keeper k)).1⟩]

/-- Callers came, got what they got, and left the shared session in another state. -/
def called (k : Keeper ω) (u : Usage ω) (outcomes : List (Option (Except Fault Nat)))
    (shared : Shared (Factory ω)) : Usage ω :=
  let epochs := u.epochsOfCall k
  { shared, epochs
    clock := u.clock.call
    seen := u.seen ++ (outcomes.filterMap id).map fun outcome => (epochs.length - 1, outcome)
    waiting := u.waiting ++ (outcomes.filter Option.isNone).map fun _ => epochs.length - 1 }

/-- What a caller got that was cancelled, as far as it is known. -/
def ofCancelled : Shared.Cancelled → List (Option (Except Fault Nat))
  | .failed fault => [some (.error fault)]
  | .finished | .cancelled => []

/-- The usage once a start-up that had not come to an end does so with a given outcome. -/
def settled (u : Usage ω) (epoch : Nat) (valid : Bool) (outcome : Except Fault Nat) : Usage ω :=
  let startup := Startup.ofOutcome outcome
  { u with
    shared := if epoch + 1 = u.epochs.length then u.shared.settle startup else u.shared
    epochs := u.epochs.set epoch ⟨valid, startup⟩
    seen := u.seen ++ (u.waiting.filter (· = epoch)).map fun e => (e, outcome)
    waiting := u.waiting.filter (· ≠ epoch) }

def finish (u : Usage ω) (epoch : Nat) (outcome : Except Fault Nat) : Usage ω :=
  match u.epochs[epoch]? with
  | some ⟨valid, .pending⟩ => u.settled epoch valid outcome
  | _ => u

def after (k : Keeper ω) (u : Usage ω) : Act ω → Usage ω
  | .session =>
    let (outcome, _, shared) := u.shared.session (Factory.keeper k)
    u.called k [outcome] shared
  | .sessions 0 => u
  | .sessions (n + 1) =>
    let (outcomes, _, shared) := u.shared.sessions (Factory.keeper k) (n + 1)
    u.called k outcomes shared
  | .cancel =>
    let (got, _, shared) := u.shared.cancel (Factory.keeper k)
    u.called k (ofCancelled got) shared
  | .leave epoch => { u with waiting := u.waiting.erase epoch }
  | .close =>
    { u with
      shared := (u.shared.close (Factory.keeper k)).2.2
      clock := { u.clock with current := none } }
  | .enter loop =>
    { u with
      shared := { u.shared with loop }
      clock := { u.clock with loop } }
  | .change settings make world =>
    { u with shared := { u.shared with world := { u.shared.world with settings, make, world } } }
  | .finish epoch outcome => u.finish epoch outcome

def run (k : Keeper ω) (u : Usage ω) (acts : List (Act ω)) : Usage ω :=
  acts.foldl (after k) u

/-- The next loop is one that may be entered. -/
theorem shared_enter_next (k : Keeper ω) (u : Usage ω) :
    (u.after k (.enter (u.shared.loop + 1))).shared = u.shared.nextLoop := rfl

theorem finish_cases (u : Usage ω) (epoch : Nat) (outcome : Except Fault Nat) :
    u.finish epoch outcome = u ∨ ∃ valid, u.epochs[epoch]? = some ⟨valid, .pending⟩ ∧
      u.finish epoch outcome = u.settled epoch valid outcome := by
  unfold finish
  cases u.epochs[epoch]? with
  | none => exact .inl rfl
  | some e =>
    obtain ⟨valid, startup⟩ := e
    cases startup with
    | pending => exact .inr ⟨valid, rfl, rfl⟩
    | failed fault => exact .inl rfl
    | live n => exact .inl rfl

theorem clock_after (k : Keeper ω) (u : Usage ω) (a : Act ω) :
    (u.after k a).clock = u.clock.tick a := by
  cases a with
  | sessions n => cases n <;> rfl
  | finish epoch outcome =>
    obtain hsame | ⟨valid, -, hsettled⟩ := u.finish_cases epoch outcome
    · rw [after, hsame]
      rfl
    · rw [after, hsettled]
      rfl
  | _ => rfl

theorem clock_run (k : Keeper ω) (u : Usage ω) (acts : List (Act ω)) :
    (u.run k acts).clock = acts.foldl Clock.tick u.clock := by
  induction acts generalizing u with
  | nil => rfl
  | cons a acts ih =>
    rw [run, List.foldl_cons, List.foldl_cons, ← u.clock_after k a]
    exact ih (u.after k a)

theorem prefix_epochsOfCall (k : Keeper ω) (u : Usage ω) : u.epochs <+: u.epochsOfCall k := by
  unfold epochsOfCall
  split
  · exact List.prefix_refl _
  · exact List.prefix_append _ _

/-- A start-up that ends touches neither the loop nor what starts the sessions. -/
theorem settled_shared (u : Usage ω) (i : Nat) (valid : Bool) (outcome : Except Fault Nat) :
    (u.settled i valid outcome).shared.loop = u.shared.loop ∧
      (u.settled i valid outcome).shared.world = u.shared.world := by
  show (if i + 1 = u.epochs.length then _ else u.shared).loop = _ ∧
    (if i + 1 = u.epochs.length then _ else u.shared).world = _
  split
  · exact ⟨rfl, rfl⟩
  · exact ⟨rfl, rfl⟩

/-- The ways in which acts change what is known. -/
inductive Change (k : Keeper ω) (u : Usage ω) : Act ω → Usage ω → Prop where
  | same {a : Act ω} : Change k u a u
  | called {a : Act ω} {outcomes : List (Option (Except Fault Nat))}
      (hgot : ∀ outcome ∈ outcomes,
        outcome = Shared.outcome? (u.shared.begin (Factory.keeper k)).1) :
      Change k u a (u.called k outcomes (u.shared.begin (Factory.keeper k)).2.2)
  | left {epoch : Nat} : Change k u (.leave epoch) { u with waiting := u.waiting.erase epoch }
  | closed {w : Factory ω} (hstarts : w.starts = u.shared.world.starts)
      (hsettings : w.settings = u.shared.world.settings) :
      Change k u .close
        { u with
          shared := { u.shared with memo := none, world := w }
          clock := { u.clock with current := none } }
  | entered {loop : Nat} :
      Change k u (.enter loop)
        { u with
          shared := { u.shared with loop }
          clock := { u.clock with loop } }
  | changed {settings : Except BridgeFault Settings}
      {make : Settings → ω → Startup × List Notice × ω} {world : ω} :
      Change k u (.change settings make world)
        { u with
          shared := { u.shared with world := { u.shared.world with settings, make, world } } }
  | settled {i : Nat} {valid : Bool} {outcome : Except Fault Nat}
      (hpending : u.epochs[i]? = some ⟨valid, .pending⟩) :
      Change k u (.finish i outcome) (u.settled i valid outcome)

theorem change_sessions (k : Keeper ω) (u : Usage ω) (n : Nat) :
    Change k u (.sessions (n + 1)) (u.after k (.sessions (n + 1))) := by
  obtain ⟨houtcomes, hstate⟩ := Shared.sessions_succ (k := Factory.keeper k) (s := u.shared) n
  have hafter : u.after k (.sessions (n + 1)) =
      u.called k (u.shared.sessions (Factory.keeper k) (n + 1)).1
        (u.shared.sessions (Factory.keeper k) (n + 1)).2.2 := rfl
  rw [hafter, houtcomes, hstate]
  exact .called fun outcome hmem => List.eq_of_mem_replicate hmem

theorem change_cancel (k : Keeper ω) (u : Usage ω) :
    Change k u .cancel (u.after k .cancel) := by
  refine .called fun outcome hmem => ?_
  have hmem : outcome ∈ ofCancelled (u.shared.cancel (Factory.keeper k)).1 := hmem
  cases hgot : (u.shared.cancel (Factory.keeper k)).1 with
  | finished => simp [hgot, ofCancelled] at hmem
  | cancelled => simp [hgot, ofCancelled] at hmem
  | failed fault =>
    rw [hgot] at hmem
    rw [List.mem_singleton.mp hmem, Shared.begin_of_cancel hgot]
    rfl

theorem change_close (k : Keeper ω) (u : Usage ω) : Change k u .close (u.after k .close) := by
  obtain ⟨w, hstate, hworld⟩ := u.shared.close_cases (Factory.keeper k)
  have hfacts : w.starts = u.shared.world.starts ∧ w.settings = u.shared.world.settings := by
    obtain rfl | ⟨n, rfl⟩ | ⟨n, rfl⟩ := hworld
    · exact ⟨rfl, rfl⟩
    · exact ⟨rfl, rfl⟩
    · exact ⟨rfl, rfl⟩
  rw [after, hstate]
  exact .closed hfacts.1 hfacts.2

/-- Every act is one of these. -/
theorem change_after (k : Keeper ω) (u : Usage ω) (a : Act ω) : Change k u a (u.after k a) := by
  cases a with
  | session => exact .called fun outcome hmem => List.mem_singleton.mp hmem
  | sessions n =>
    cases n with
    | zero => exact .same
    | succ n => exact u.change_sessions k n
  | cancel => exact u.change_cancel k
  | leave epoch => exact .left
  | close => exact u.change_close k
  | enter loop => exact .entered
  | change settings make world => exact .changed
  | finish i outcome =>
    show Change k u (.finish i outcome) (u.finish i outcome)
    obtain hsame | ⟨valid, hpending, hsettled⟩ := u.finish_cases i outcome
    · rw [hsame]
      exact .same
    · rw [hsettled]
      exact .settled hpending

end Usage

end FragmentLint
