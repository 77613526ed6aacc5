import FragmentLint.Proofs.SharedUse
import FragmentLint.Proofs.Trace

/-!
# No session is lost

Whoever starts a session has to see that it ends. The keeper of a shared session is watched
here: each session that it makes is entered into a record, with the loop in which it was made,
and whatever closes or kills the session is written behind it. It turns out that at every
moment a session is either the one that is kept, and untouched, or was released once: closed in
its own loop, or killed from another one.

The watch knows sessions by their places in the record, since nothing keeps a keeper from using
a number again. Apart from these names a watched keeper does what the keeper does.
-/
namespace FragmentLint

/-- How a session was released, and in which loop. -/
inductive Release where
  | closed (loop : Nat)
  | killed (loop : Nat)
  deriving DecidableEq, Repr

structure Made where
  /-- The number by which its keeper knows it. -/
  number : Nat
  /-- The loop in which it was made. -/
  loop : Nat
  /-- How it was released, in order. -/
  releases : List Release := []
  deriving DecidableEq, Repr

/-- The session was released once, in the way that the loop allows: closed in its own loop, or
killed from another one. -/
def Made.Freed (m : Made) : Prop :=
  m.releases = [.closed m.loop] ∨ ∃ loop, loop ≠ m.loop ∧ m.releases = [.killed loop]

/-- The world of a keeper that is watched. -/
structure Watched (ω : Type) where
  world : ω
  /-- The loop that runs. -/
  loop : Nat
  /-- The sessions that were made, in order. -/
  made : List Made := []

namespace Watched

variable {ω : Type}

/-- A start has come to something. A session is known by its place in the record from then on. -/
def enter (s : Watched ω) (startup : Startup) (world : ω) : Startup × Watched ω :=
  match startup with
  | .live n => (.live s.made.length, { s with world, made := s.made ++ [⟨n, s.loop, []⟩] })
  | startup => (startup, { s with world })

def release (s : Watched ω) (i : Nat) (r : Release) (world : ω) : Watched ω :=
  { s with world, made := s.made.modify i fun m => { m with releases := m.releases ++ [r] } }

def keeper (k : Keeper ω) : Keeper (Watched ω) where
  start s :=
    let (startup, noted, world) := k.start s.world
    let (startup, s) := s.enter startup world
    (startup, noted, s)
  request i payload s :=
    match s.made[i]? with
    | none => none
    | some m =>
      (k.request m.number payload s.world).map fun (answer, world) => (answer, { s with world })
  close i s :=
    match s.made[i]? with
    | none => ([], s)
    | some m =>
      let (noted, world) := k.close m.number s.world
      (noted, s.release i (.closed s.loop) world)
  kill i s :=
    match s.made[i]? with
    | none => s
    | some m => s.release i (.killed s.loop) (k.kill m.number s.world)

/-- The start-up by the number that the keeper gave. -/
def known (s : Watched ω) : Startup → Startup
  | .live i => .live ((s.made[i]?.map Made.number).getD 0)
  | startup => startup

/-- Every session was released. -/
def AllFreed (s : Watched ω) : Prop :=
  ∀ m ∈ s.made, m.Freed

theorem kill_keeper {k : Keeper ω} {s : Watched ω} {i : Nat} {m : Made}
    (hm : s.made[i]? = some m) : (keeper k).kill i s =
      s.release i (.killed s.loop) (k.kill m.number s.world) := by
  simp [keeper, hm]

theorem close_keeper {k : Keeper ω} {s : Watched ω} {i : Nat} {m : Made}
    (hm : s.made[i]? = some m) : (keeper k).close i s =
      ((k.close m.number s.world).1,
        s.release i (.closed s.loop) (k.close m.number s.world).2) := by
  simp [keeper, hm]

theorem made_release (s : Watched ω) (i : Nat) (r : Release) (world : ω) (j : Nat) :
    (s.release i r world).made[j]? = (s.made[j]?).map fun m =>
      if i = j then { m with releases := m.releases ++ [r] } else m :=
  List.getElem?_modify _ _ _ _

end Watched

namespace Shared

variable {ω : Type} {k : Keeper ω} {s : Shared (Watched ω)}

def unwatched (s : Shared (Watched ω)) : Shared ω where
  loop := s.loop
  memo := s.memo.map fun memo => { memo with startup := s.world.known memo.startup }
  world := s.world.world

/-- What holds of a shared session whose keeper is watched: the session that is kept is one that
was made in the loop for which it is kept, and not released; all others were. -/
structure InOrder (s : Shared (Watched ω)) : Prop where
  loop : s.world.loop = s.loop
  kept : ∀ loop i, s.memo = some ⟨loop, .live i⟩ →
    ∃ m, s.world.made[i]? = some m ∧ m.loop = loop ∧ m.releases = []
  freed : ∀ i m, s.world.made[i]? = some m →
    (∀ loop, s.memo ≠ some ⟨loop, .live i⟩) → m.Freed

/-- Where no session is kept, all were released. -/
theorem InOrder.allFreed (h : InOrder s) (hnone : ∀ loop i, s.memo ≠ some ⟨loop, .live i⟩) :
    s.world.AllFreed := by
  intro m hm
  obtain ⟨i, hi, rfl⟩ := List.getElem_of_mem hm
  exact h.freed i _ (List.getElem?_eq_getElem hi) fun loop => hnone loop i

/-- When the session that is kept is released as its loop allows, all were released. -/
theorem InOrder.release (h : InOrder s) {loop i : Nat} (hmemo : s.memo = some ⟨loop, .live i⟩)
    {r : Release} (hr : r = .closed loop ∨ ∃ other, other ≠ loop ∧ r = .killed other) (world : ω) :
    (s.world.release i r world).AllFreed := by
  intro m hm
  obtain ⟨j, hj⟩ := List.mem_iff_getElem?.mp hm
  rw [Watched.made_release, Option.map_eq_some_iff] at hj
  obtain ⟨m', hm', rfl⟩ := hj
  by_cases hij : i = j
  · subst hij
    obtain ⟨m'', hkept, hloop, hnil⟩ := h.kept loop i hmemo
    obtain rfl : m' = m'' := Option.some.inj (hm'.symm.trans hkept)
    rw [if_pos rfl]
    obtain rfl | ⟨other, hne, rfl⟩ := hr
    · exact .inl (by simp [hnil, hloop])
    · exact .inr ⟨other, by simpa [hloop] using hne, by simp [hnil]⟩
  · rw [if_neg hij]
    refine h.freed j m' hm' fun loop' hmemo' => hij ?_
    rw [hmemo] at hmemo'
    simpa using congrArg (Option.map Memo.startup) hmemo'

/-- When a start comes to something after all sessions were released, what comes of it is kept. -/
theorem inOrder_enter {w : Watched ω} (h : w.AllFreed) (startup : Startup) (world : ω) :
    InOrder { loop := w.loop, memo := some ⟨w.loop, (w.enter startup world).1⟩,
              world := (w.enter startup world).2 } := by
  cases startup with
  | live n =>
    constructor
    case loop => rfl
    case kept =>
      intro loop i hmemo
      obtain ⟨rfl, hi⟩ := Memo.mk.inj (Option.some.inj hmemo)
      obtain rfl := Startup.live.inj hi
      exact ⟨_, List.getElem?_concat_length, rfl, rfl⟩
    case freed =>
      intro i m hm hother
      have hne : i ≠ w.made.length := by
        rintro rfl
        exact hother w.loop rfl
      have hi : i < w.made.length := by
        have hlt := (List.getElem?_eq_some_iff.mp hm).1
        have hlength : (w.made ++ [(⟨n, w.loop, []⟩ : Made)]).length = w.made.length + 1 :=
          List.length_append
        have hlt' : i < w.made.length + 1 := hlength ▸ hlt
        omega
      have hprior : w.made[i]? = some m := (List.getElem?_append_left hi).symm.trans hm
      exact h m (List.mem_of_getElem? hprior)
  | pending =>
    exact ⟨rfl, by simp [Watched.enter], fun i m hm _ => h m (List.mem_of_getElem? hm)⟩
  | failed fault =>
    exact ⟨rfl, by simp [Watched.enter], fun i m hm _ => h m (List.mem_of_getElem? hm)⟩

theorem memo_of_current?_eq_none {startup : Startup} {loop : Nat} (h : s.current? = none)
    (hmemo : s.memo = some ⟨loop, startup⟩) : loop ≠ s.loop := by
  rintro rfl
  rw [current?_eq_some_iff.mpr hmemo] at h
  cases h

/-- What is left behind in another loop is abandoned before a start: after that, all sessions
were released. -/
theorem InOrder.cleared (h : InOrder s) (hnone : s.current? = none) :
    (s.cleared (Watched.keeper k)).AllFreed ∧ (s.cleared (Watched.keeper k)).loop = s.loop := by
  unfold Shared.cleared
  cases hmemo : s.memo with
  | none => exact ⟨h.allFreed (by simp [hmemo]), h.loop⟩
  | some memo =>
    obtain ⟨loop, startup⟩ := memo
    cases startup with
    | pending => exact ⟨h.allFreed (by simp [hmemo]), h.loop⟩
    | failed fault => exact ⟨h.allFreed (by simp [hmemo]), h.loop⟩
    | live i =>
      obtain ⟨m, hm, -, -⟩ := h.kept loop i hmemo
      have hne : s.world.loop ≠ loop := by
        rw [h.loop]
        exact (memo_of_current?_eq_none hnone hmemo).symm
      have hfreed := h.release hmemo (.inr ⟨_, hne, rfl⟩) (k.kill m.number s.world.world)
      simp only [abandon, Watched.kill_keeper hm]
      exact ⟨hfreed, h.loop⟩

theorem InOrder.begin (h : InOrder s) : InOrder (s.begin (Watched.keeper k)).2.2 := by
  cases hcurrent : s.current? with
  | some startup =>
    rw [begin_of_some hcurrent]
    exact h
  | none =>
    obtain ⟨hfreed, hloop⟩ := h.cleared (k := k) hcurrent
    rw [(begin_of_none hcurrent).2, ← hloop]
    exact inOrder_enter hfreed _ _

/-- Closing leaves nothing that is kept, and releases what was. -/
theorem InOrder.close (h : InOrder s) : InOrder (s.close (Watched.keeper k)).2.2 := by
  have hempty : ∀ w : Watched ω, w.AllFreed → w.loop = s.loop →
      InOrder { s with memo := none, world := w } := by
    intro w hfreed hloop
    exact ⟨hloop, by simp, fun i m hm _ => hfreed m (List.mem_of_getElem? hm)⟩
  unfold Shared.close
  cases hmemo : s.memo with
  | none => exact hempty _ (h.allFreed (by simp [hmemo])) h.loop
  | some memo =>
    obtain ⟨loop, startup⟩ := memo
    cases startup with
    | pending =>
      have hfreed := h.allFreed (by simp [hmemo])
      by_cases hloop : loop = s.loop <;> simpa [hloop, abandon] using hempty _ hfreed h.loop
    | failed fault =>
      have hfreed := h.allFreed (by simp [hmemo])
      by_cases hloop : loop = s.loop
      · cases fault <;> simpa [hloop] using hempty _ hfreed h.loop
      · simpa [hloop, abandon] using hempty _ hfreed h.loop
    | live i =>
      obtain ⟨m, hm, -, -⟩ := h.kept loop i hmemo
      by_cases hloop : loop = s.loop
      · have hown : s.world.loop = loop := h.loop.trans hloop.symm
        simp only [hloop, if_true, Watched.close_keeper hm]
        exact hempty _ (h.release hmemo (.inl (by rw [hown])) _) h.loop
      · have hother : s.world.loop ≠ loop := by
          rw [h.loop]
          exact Ne.symm hloop
        simp only [hloop, if_false, abandon, Watched.kill_keeper hm]
        exact hempty _ (h.release hmemo (.inr ⟨_, hother, rfl⟩) _) h.loop

/-- A shared session that nobody has used, and that is watched. -/
def opened (loop : Nat) (world : ω) : Shared (Watched ω) :=
  { loop, world := { world, loop } }

def finish (s : Shared (Watched ω)) (outcome : Except Fault Nat) (world : ω) :
    Shared (Watched ω) :=
  let (startup, world) := s.world.enter (.ofOutcome outcome) world
  { s with memo := some ⟨s.loop, startup⟩, world }

/-- What happens next. -/
inductive Move (ω : Type) where
  /-- A caller comes. -/
  | session
  /-- Several callers come at once. -/
  | sessions (n : Nat)
  /-- A caller comes and is cancelled. -/
  | cancel
  | close
  /-- Another loop runs from now on. -/
  | enter (loop : Nat)
  /-- Whatever else happens in the keeper's world: requests are made, processes end, and starts
  come to something else from now on. -/
  | change (world : ω)
  /-- A start-up comes to an end after the caller who made it has left. -/
  | finish (outcome : Except Fault Nat) (world : ω)

/-- How a watched session goes on. Closing is a step only if it comes to an end, which it does
not while a start-up is under way. A start-up goes on only while its loop runs, and only if it
was not left behind. -/
inductive Step (k : Keeper ω) : Shared (Watched ω) → Move ω → Shared (Watched ω) → Prop where
  | session {s : Shared (Watched ω)} : Step k s .session (s.session (Watched.keeper k)).2.2
  | sessions {s : Shared (Watched ω)} {n : Nat} :
      Step k s (.sessions n) (s.sessions (Watched.keeper k) n).2.2
  | cancel {s : Shared (Watched ω)} : Step k s .cancel (s.cancel (Watched.keeper k)).2.2
  | close {s : Shared (Watched ω)} (hdone : (s.close (Watched.keeper k)).1 ≠ none) :
      Step k s .close (s.close (Watched.keeper k)).2.2
  | enter {s : Shared (Watched ω)} {loop : Nat} :
      Step k s (.enter loop) { s with loop, world := { s.world with loop } }
  | change {s : Shared (Watched ω)} {world : ω} :
      Step k s (.change world) { s with world := { s.world with world } }
  | finish {s : Shared (Watched ω)} {outcome : Except Fault Nat} {world : ω}
      (hpending : s.memo = some ⟨s.loop, .pending⟩) :
      Step k s (.finish outcome world) (s.finish outcome world)

theorem InOrder.sessions (h : InOrder s) (n : Nat) :
    InOrder (s.sessions (Watched.keeper k) n).2.2 := by
  cases n with
  | zero => exact h
  | succ n =>
    rw [(sessions_succ n).2]
    exact h.begin

theorem InOrder.step (h : InOrder s) {m : Move ω} {t : Shared (Watched ω)} (hstep : Step k s m t) :
    InOrder t := by
  cases hstep with
  | session => exact h.begin
  | sessions => exact h.sessions _
  | cancel => exact h.begin
  | close hdone => exact h.close
  | enter => exact ⟨rfl, h.kept, h.freed⟩
  | change => exact ⟨h.loop, h.kept, h.freed⟩
  | finish hpending =>
    have hfreed := h.allFreed (by simp [hpending])
    rw [Shared.finish, ← h.loop]
    exact inOrder_enter hfreed _ _

/-- A session can be handed to a caller: it was made and has not been released. -/
def Usable (s : Shared (Watched ω)) (i : Nat) : Prop :=
  ∃ m, s.world.made[i]? = some m ∧ m.releases = []

/-- What is known of the sessions that a keeper has made. -/
structure Accounted (k : Keeper ω) (s : Shared (Watched ω)) : Prop where
  /-- Each of them is kept and was not released, or is not kept and was released once: closed in
  the loop in which it was made, or killed from another one. -/
  each : ∀ i m, s.world.made[i]? = some m →
    (s.memo = some ⟨m.loop, .live i⟩ ∧ m.releases = []) ∨
      ((∀ loop, s.memo ≠ some ⟨loop, .live i⟩) ∧ m.Freed)
  /-- So there is one at most that was not released. -/
  one : ∀ i j, s.Usable i → s.Usable j → i = j
  /-- A caller gets no session that was released. -/
  session : ∀ i, (s.session (Watched.keeper k)).1 = some (.ok i) →
    (s.session (Watched.keeper k)).2.2.Usable i
  /-- Nor do callers who come together. -/
  sessions : ∀ n i, some (.ok i) ∈ (s.sessions (Watched.keeper k) n).1 →
    (s.sessions (Watched.keeper k) n).2.2.Usable i
  /-- Without the watch, callers find or make the same start-up with the same effect. -/
  begin : s.unwatched.begin k =
    ((s.begin (Watched.keeper k)).2.2.world.known (s.begin (Watched.keeper k)).1,
      (s.begin (Watched.keeper k)).2.1, (s.begin (Watched.keeper k)).2.2.unwatched)
  /-- And closing has the same effect. -/
  close : s.unwatched.close k =
    ((s.close (Watched.keeper k)).1, (s.close (Watched.keeper k)).2.1,
      (s.close (Watched.keeper k)).2.2.unwatched)

/-- A session that was made is kept in its loop and was not released, or is not kept and was. -/
theorem InOrder.each (h : InOrder s) {i : Nat} {m : Made} (hm : s.world.made[i]? = some m) :
    (s.memo = some ⟨m.loop, .live i⟩ ∧ m.releases = []) ∨
      ((∀ loop, s.memo ≠ some ⟨loop, .live i⟩) ∧ m.Freed) := by
  by_cases hmemo : ∃ loop, s.memo = some ⟨loop, .live i⟩
  · obtain ⟨loop, hmemo⟩ := hmemo
    obtain ⟨m', hm', rfl, hnil⟩ := h.kept loop i hmemo
    obtain rfl : m = m' := Option.some.inj (hm.symm.trans hm')
    exact .inl ⟨hmemo, hnil⟩
  · have hother : ∀ loop, s.memo ≠ some ⟨loop, .live i⟩ := fun loop heq => hmemo ⟨loop, heq⟩
    exact .inr ⟨hother, h.freed i m hm hother⟩

end Shared

end FragmentLint
