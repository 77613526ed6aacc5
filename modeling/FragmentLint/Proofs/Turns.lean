import FragmentLint.Parser.Diagram
import FragmentLint.Proofs.SharedUse
import FragmentLint.Proofs.Trace
import FragmentLint.Validation.Run
import Mathlib.Tactic.ByContra

/-!
# Tasks that take turns

A run over several diagrams makes a task for each of them at once. The tasks are followed here move
by move. Each begins in its turn and asks for the shared session; the first one makes the start-up,
and all of them sleep until it ends. They are woken in the order in which they fell asleep. Then a
task needs the lock of the session for its request, and whoever does not find it free queues for it.

No order is laid down for the moves of different tasks beyond that. Still, every course comes to
what serving the tasks one at a time comes to, and none gets stuck where that has an outcome.
-/
namespace FragmentLint

/-- A task: the number of its slot, and the code that it asks about. -/
structure Turn where
  slot : Nat
  code : Text

namespace Turn

/-- The tasks of slots that are counted from a number. That of a blank fragment ends as soon as it
begins, so it is left out. -/
def ofSlots : Nat → List Pipeline.Slot → List Turn
  | _, [] => []
  | n, .settled _ :: slots => ofSlots (n + 1) slots
  | n, .waiting trimmed :: slots => ⟨n, trimmed.code⟩ :: ofSlots (n + 1) slots

/-- What tasks come to that are served one at a time. -/
def serve {σ : Type} (c : Checker σ) : List Turn → σ → Option (List Pipeline.Arrival × σ)
  | [], s => some ([], s)
  | t :: turns, s => do
    let answer ← c.check t.code s
    let (arrivals, s) ← serve c turns answer.state
    return (⟨t.slot, answer.verdict, answer.notices⟩ :: arrivals, s)

theorem serve_ofSlots {σ : Type} (c : Checker σ) (n : Nat) (slots : List Pipeline.Slot) (s : σ) :
    serve c (ofSlots n slots) s = Pipeline.serve c n slots s := by
  induction slots generalizing n s with
  | nil => rfl
  | cons slot slots ih =>
    cases slot with
    | settled finding => exact ih (n + 1) s
    | waiting trimmed => simp only [ofSlots, serve, Pipeline.serve, ih]

theorem serve_cons_of_check {σ : Type} {c : Checker σ} {t : Turn} {s : σ} {answer : Checked σ}
    (h : c.check t.code s = some answer) (turns : List Turn) :
    serve c (t :: turns) s = (serve c turns answer.state).map fun r =>
      (⟨t.slot, answer.verdict, answer.notices⟩ :: r.1, r.2) := by
  rw [serve, h, Option.bind_eq_bind, Option.bind_some]
  cases serve c turns answer.state <;> rfl

/-- Arrivals, the first of which also tells what was noted before. -/
def heralded (noted : List Notice) : List Pipeline.Arrival → List Pipeline.Arrival
  | [] => []
  | a :: arrivals => { a with notices := noted ++ a.notices } :: arrivals

theorem heralded_nil (arrivals : List Pipeline.Arrival) : heralded [] arrivals = arrivals := by
  cases arrivals <;> rfl

theorem heralded_heralded (noted more : List Notice) (arrivals : List Pipeline.Arrival) :
    heralded noted (heralded more arrivals) = heralded (noted ++ more) arrivals := by
  cases arrivals with
  | nil => rfl
  | cons a arrivals => simp [heralded]

end Turn

namespace Shared

variable {ω : Type} {k : Keeper ω} {s : Shared ω}

/-- What is noted when what was kept for another loop is abandoned. -/
def parting (k : Keeper ω) (s : Shared ω) : List Notice :=
  match s.memo with
  | some memo => (abandon k memo.startup s.world).1
  | none => []

theorem notices_of_begin (h : s.current? = none) :
    (begin k s).2.1 = parting k s ++ (k.start (cleared k s)).2.1 := by
  cases hmemo : s.memo <;> simp [begin, cleared, parting, h, hmemo]

def underWay (k : Keeper ω) (s : Shared ω) : Shared ω :=
  { s with memo := some ⟨s.loop, .pending⟩, world := cleared k s }

def risen (k : Keeper ω) (s : Shared ω) : Shared ω :=
  { s with memo := some ⟨s.loop, (k.start s.world).1⟩, world := (k.start s.world).2.2 }

theorem current?_underWay (k : Keeper ω) (s : Shared ω) : (s.underWay k).current? = some .pending :=
  current?_eq_some_iff.mpr rfl

theorem current?_risen (k : Keeper ω) (s : Shared ω) :
    (s.risen k).current? = some (k.start s.world).1 :=
  current?_eq_some_iff.mpr rfl

/-- To begin a start-up and to see it end is to find a session. -/
theorem risen_underWay (h : s.current? = none) : (s.underWay k).risen k = (begin k s).2.2 :=
  (begin_of_none h).2.symm

end Shared

namespace Diagram

variable {ω : Type} {k : Keeper ω} {s : Shared ω}

/-- What the answer to a request says about the diagram. -/
def ofAnswer : Except Fault Json.Members → Except ParseFault Unit
  | .error fault => .error (.fault fault)
  | .ok reply => ofReply reply

/-- The verdict on a diagram, given what its task finds of the session. -/
def checkBehind (k : Keeper ω) (code : Text) :
    Option (Except Fault Nat) × List Notice × Shared ω → Option (Checked (Shared ω))
  | (none, _, _) => none
  | (some (.error fault), noted, s) =>
    some ⟨(verdict (.error (.fault fault))).1, noted ++ (verdict (.error (.fault fault))).2, s⟩
  | (some (.ok n), noted, s) => (k.request n (payload code) s.world).map fun (answer, world) =>
    ⟨(verdict (ofAnswer answer)).1, noted ++ (verdict (ofAnswer answer)).2, { s with world }⟩

theorem check_eq (k : Keeper ω) (code : Text) (s : Shared ω) :
    check k code s = checkBehind k code (s.session k) := by
  unfold check parse checkBehind
  rcases s.session k with ⟨outcome, noted, s'⟩
  cases outcome with
  | none => rfl
  | some outcome =>
    cases outcome with
    | error fault => rfl
    | ok n =>
      dsimp only
      cases k.request n (payload code) s'.world with
      | none => rfl
      | some r =>
        obtain ⟨answer, world⟩ := r
        cases answer <;> rfl

/-- A diagram for which the session has to be started comes to what it would come to behind the
start, but for what the start notes. -/
theorem check_begin (k : Keeper ω) (s : Shared ω) (code : Text) :
    check k code s = (check k code (Shared.begin k s).2.2).map fun answer =>
      { answer with notices := (Shared.begin k s).2.1 ++ answer.notices } := by
  have hfirst : s.session k = (Shared.outcome? (Shared.begin k s).1, (Shared.begin k s).2.1,
      (Shared.begin k s).2.2) := rfl
  have hbehind : (Shared.begin k s).2.2.session k = (Shared.outcome? (Shared.begin k s).1, [],
      (Shared.begin k s).2.2) := by rw [Shared.session, Shared.begin_begin]
  rw [check_eq, check_eq, hfirst, hbehind]
  cases Shared.outcome? (Shared.begin k s).1 with
  | none => rfl
  | some outcome =>
    cases outcome with
    | error fault => rfl
    | ok n =>
      simp only [checkBehind]
      cases k.request n (payload code) (Shared.begin k s).2.2.world <;> rfl

theorem serve_begin (k : Keeper ω) (s : Shared ω) {turns : List Turn} (h : turns ≠ []) :
    Turn.serve (checker k) turns s = (Turn.serve (checker k) turns (Shared.begin k s).2.2).map
      fun r => (Turn.heralded (Shared.begin k s).2.1 r.1, r.2) := by
  obtain ⟨t, turns, rfl⟩ := List.exists_cons_of_ne_nil h
  have hcheck := check_begin k s t.code
  simp only [Turn.serve]
  rw [show (checker k).check t.code s = _ from hcheck]
  cases hbehind : check k t.code (Shared.begin k s).2.2 with
  | none =>
    rw [show (checker k).check t.code (Shared.begin k s).2.2 = none from hbehind]
    rfl
  | some answer =>
    rw [show (checker k).check t.code (Shared.begin k s).2.2 = some answer from hbehind]
    simp only [Option.map_some, Option.bind_eq_bind, Option.bind_some]
    cases Turn.serve (checker k) turns answer.state <;> rfl

end Diagram

/-- Tasks that take turns with the shared session, as they stand. -/
structure Lineup (ω : Type) where
  shared : Shared ω
  /-- The tasks that have not begun. -/
  ahead : List Turn
  /-- Those that sleep until the start-up ends. -/
  asleep : List Turn := []
  /-- Those that queue for the lock. -/
  queue : List Turn := []
  /-- The one that has the lock. -/
  holder : Option Turn := none
  /-- Whether a start-up that one of them made has yet to end. -/
  starting : Bool := false
  /-- What was noted since the last verdict. -/
  noted : List Notice := []
  /-- The verdicts that there are. -/
  arrivals : List Pipeline.Arrival := []

namespace Lineup

variable {ω : Type} {k : Keeper ω}

/-- The tasks of slots, before any of them has begun. -/
def ready (n : Nat) (slots : List Pipeline.Slot) (s : Shared ω) : Lineup ω :=
  { shared := s, ahead := Turn.ofSlots n slots }

/-- The tasks that have no verdict yet, in the order in which they will have one. -/
def rest (l : Lineup ω) : List Turn :=
  l.holder.toList ++ l.queue ++ l.asleep ++ l.ahead

def arrive (l : Lineup ω) (t : Turn) (outcome : Except ParseFault Unit) : Lineup ω :=
  { l with
    noted := []
    arrivals := l.arrivals ++
      [⟨t.slot, (Diagram.verdict outcome).1, l.noted ++ (Diagram.verdict outcome).2⟩] }

/-- A task knows what came of the start-up, or has to wait for it. -/
def learn (l : Lineup ω) (t : Turn) : Startup → Lineup ω
  | .pending => { l with asleep := l.asleep ++ [t] }
  | .failed fault => l.arrive t (.error (.fault fault))
  | .live _ =>
    if l.holder = none ∧ l.queue = [] then { l with holder := some t }
    else { l with queue := l.queue ++ [t] }

/-- What happens next. -/
inductive Move where
  /-- The next task begins. -/
  | begin
  /-- The start-up ends. -/
  | rise
  /-- The task that fell asleep first wakes up. -/
  | wake
  /-- The lock is passed to the first in the queue. -/
  | pass
  /-- The request of the one that has the lock is answered. -/
  | answer

/-- How tasks go on. The start-up is a task itself. It is made when the first of them begins, so
its turn comes behind all the others. -/
inductive Step (k : Keeper ω) : Lineup ω → Move → Lineup ω → Prop where
  | first {l : Lineup ω} {t : Turn} {ahead : List Turn} (hahead : l.ahead = t :: ahead)
      (hnone : l.shared.current? = none) :
      Step k l .begin
        { l with
          shared := l.shared.underWay k
          ahead
          asleep := l.asleep ++ [t]
          starting := true
          noted := l.noted ++ l.shared.parting k }
  | begin {l : Lineup ω} {t : Turn} {ahead : List Turn} {startup : Startup}
      (hahead : l.ahead = t :: ahead) (hkept : l.shared.current? = some startup) :
      Step k l .begin ({ l with ahead }.learn t startup)
  | rise {l : Lineup ω} (hstarting : l.starting = true) (hahead : l.ahead = [])
      (hends : (k.start l.shared.world).1 ≠ .pending) :
      Step k l .rise
        { l with
          shared := l.shared.risen k
          starting := false
          noted := l.noted ++ (k.start l.shared.world).2.1 }
  | wake {l : Lineup ω} {t : Turn} {asleep : List Turn} {startup : Startup}
      (hasleep : l.asleep = t :: asleep) (hkept : l.shared.current? = some startup)
      (hends : startup ≠ .pending) : Step k l .wake ({ l with asleep }.learn t startup)
  | pass {l : Lineup ω} {t : Turn} {queue : List Turn} (hfree : l.holder = none)
      (hqueue : l.queue = t :: queue) : Step k l .pass { l with holder := some t, queue }
  | answer {l : Lineup ω} {t : Turn} {n : Nat} {answer : Except Fault Json.Members} {world : ω}
      (hholder : l.holder = some t) (hlive : l.shared.current? = some (.live n))
      (hrequest : k.request n (Diagram.payload t.code) l.shared.world = some (answer, world)) :
      Step k l .answer
        ({ l with holder := none, shared := { l.shared with world } }.arrive t
          (Diagram.ofAnswer answer))

/-- What is known of tasks at every moment. -/
structure Orderly (l : Lineup ω) : Prop where
  /-- While the start-up has yet to end, the task that made it sleeps. -/
  starting : l.starting = true → l.shared.current? = some .pending ∧ l.asleep ≠ []
  /-- Nobody gets to the lock of a session that is not up. -/
  locked : l.holder.isSome ∨ l.queue ≠ [] → ∃ n, l.shared.current? = some (.live n)
  /-- Whoever sleeps knows of a start-up. -/
  sleeping : l.asleep ≠ [] → l.shared.current? ≠ none
  /-- All have begun before the first one wakes up. -/
  waking : l.asleep ≠ [] → l.ahead ≠ [] → l.shared.current? = some .pending

theorem orderly_ready (n : Nat) (slots : List Pipeline.Slot) (s : Shared ω) :
    Orderly (ready n slots s) := by
  constructor <;> simp [ready]

/-- What a task learns leaves the order as it is, whether it has just begun or wakes up. -/
theorem Orderly.learn {l : Lineup ω} (h : Orderly l) {startup : Startup}
    (hkept : l.shared.current? = some startup) (t : Turn) : Orderly (l.learn t startup) := by
  obtain ⟨hstarting, hlocked, hsleeping, hwaking⟩ := h
  cases startup with
  | pending =>
    refine ⟨fun _ => ⟨hkept, ?_⟩, hlocked, fun _ => ?_, fun _ _ => hkept⟩
    · simp [Lineup.learn]
    · simp [Lineup.learn, hkept]
  | failed fault => exact ⟨hstarting, hlocked, hsleeping, hwaking⟩
  | live n =>
    simp only [Lineup.learn]
    split
    · exact ⟨hstarting, fun _ => ⟨n, hkept⟩, hsleeping, hwaking⟩
    · exact ⟨hstarting, fun _ => ⟨n, hkept⟩, hsleeping, hwaking⟩

theorem Orderly.awake {l : Lineup ω} (h : Orderly l) {startup : Option Startup}
    (hkept : l.shared.current? = startup) (hends : startup ≠ some .pending) :
    l.starting = false := by
  by_contra hstarting
  rw [(h.starting (by simpa using hstarting)).1] at hkept
  exact hends hkept.symm

/-- Where there is no session, nobody has come to the lock. -/
theorem Orderly.free {l : Lineup ω} (h : Orderly l) {fault : Fault}
    (hkept : l.shared.current? = some (.failed fault)) : l.holder = none ∧ l.queue = [] := by
  by_contra hne
  have hlocked : l.holder.isSome ∨ l.queue ≠ [] := by
    rwa [Option.isSome_iff_ne_none, ← Classical.not_and_iff_not_or_not]
  obtain ⟨n, hlive⟩ := h.locked hlocked
  rw [hkept] at hlive
  cases hlive

theorem Orderly.step {l m : Lineup ω} {move : Move} (h : Orderly l) (hstep : Step k l move m) :
    Orderly m := by
  cases hstep with
  | first hahead hnone =>
    have hkept := Shared.current?_underWay k l.shared
    refine ⟨fun _ => ⟨hkept, by simp⟩, fun hlocked => ?_, fun _ => by simp [hkept],
      fun _ _ => hkept⟩
    obtain ⟨n, hlive⟩ := h.locked hlocked
    rw [hnone] at hlive
    cases hlive
  | @begin t ahead startup hahead hkept =>
    have hbegun : Orderly { l with ahead } :=
      ⟨h.starting, h.locked, h.sleeping, fun hasleep _ => h.waking hasleep (by simp [hahead])⟩
    exact hbegun.learn hkept _
  | rise hstarting hahead hends =>
    have hrisen := Shared.current?_risen k l.shared
    refine ⟨by simp, fun hlocked => ?_, fun _ => by simp [hrisen],
      fun _ hne => absurd hahead hne⟩
    obtain ⟨n, hlive⟩ := h.locked hlocked
    rw [(h.starting hstarting).1] at hlive
    cases hlive
  | @wake t asleep startup hasleep hkept hends =>
    have hawake := h.awake hkept (by simpa using hends)
    have hwoken : Orderly { l with asleep } :=
      ⟨fun hstarting => absurd hstarting (by simp [hawake]), h.locked, fun _ => by simp [hkept],
        fun _ hahead => h.waking (by simp [hasleep]) hahead⟩
    exact hwoken.learn hkept _
  | pass hfree hqueue =>
    exact ⟨h.starting, fun _ => h.locked (.inr (by simp [hqueue])), h.sleeping, h.waking⟩
  | answer hholder hlive hrequest =>
    exact ⟨h.starting, fun _ => ⟨_, hlive⟩, h.sleeping, h.waking⟩

/-- The shared session once the start-up has ended, with what that notes. -/
def settled (k : Keeper ω) (l : Lineup ω) : Shared ω × List Notice :=
  if l.starting then (l.shared.risen k, (k.start l.shared.world).2.1) else (l.shared, [])

/-- What tasks come to if those that are left are served one at a time. -/
def due (k : Keeper ω) (l : Lineup ω) : Option (List Pipeline.Arrival × Shared ω) :=
  (Turn.serve (Diagram.checker k) l.rest (l.settled k).1).map fun r =>
    (l.arrivals ++ Turn.heralded (l.noted ++ (l.settled k).2) r.1, r.2)

theorem due_ready (k : Keeper ω) (n : Nat) (slots : List Pipeline.Slot) (s : Shared ω) :
    (ready n slots s).due k = Pipeline.serve (Diagram.checker k) n slots s := by
  have hrest : (ready n slots s).rest = Turn.ofSlots n slots := rfl
  rw [due, hrest, show (ready n slots s).settled k = (s, []) from rfl, Turn.serve_ofSlots]
  simp [ready, Turn.heralded_nil]

/-- A verdict that is the next one leaves what tasks come to. -/
theorem due_arrive {l m : Lineup ω} {t : Turn} {outcome : Except ParseFault Unit}
    (hl : l.starting = false) (hm : m.starting = false) (hrest : l.rest = t :: m.rest)
    (hnoted : m.noted = l.noted) (harrivals : m.arrivals = l.arrivals)
    (hcheck : Diagram.check k t.code l.shared =
      some ⟨(Diagram.verdict outcome).1, (Diagram.verdict outcome).2, m.shared⟩) :
    (m.arrive t outcome).due k = l.due k := by
  have hsettled : l.settled k = (l.shared, []) := if_neg (by simp [hl])
  have hafter : (m.arrive t outcome).settled k = (m.shared, []) := if_neg (by simp [arrive, hm])
  have hserve := Turn.serve_cons_of_check (c := Diagram.checker k) hcheck m.rest
  rw [due, due, hsettled, hafter, hrest, hserve, Option.map_map,
    show (m.arrive t outcome).rest = m.rest from rfl]
  refine congrArg (fun f => Option.map f _) (funext fun r => ?_)
  have hlater : Turn.heralded ((m.arrive t outcome).noted ++ []) r.1 = r.1 :=
    Turn.heralded_nil r.1
  simp only [Function.comp_apply, hlater]
  simp [arrive, Turn.heralded, hnoted, harrivals]

/-- So does a task that begins or wakes up and finds that the start-up has ended. -/
theorem due_learn {l : Lineup ω} (h : Orderly l) {t : Turn} {asleep ahead : List Turn}
    (hrest : l.asleep ++ l.ahead = t :: (asleep ++ ahead)) {startup : Startup}
    (hkept : l.shared.current? = some startup) (hends : startup ≠ .pending) :
    ({ l with asleep, ahead }.learn t startup).due k = l.due k := by
  have hstarting := h.awake hkept (by simpa using hends)
  cases startup with
  | pending => exact absurd rfl hends
  | failed fault =>
    refine due_arrive hstarting hstarting ?_ rfl rfl ?_
    · simp [rest, h.free hkept, hrest]
    · rw [Diagram.check_eq, Shared.session_of_some hkept]
      rfl
  | live n =>
    have hsame : ∀ {m : Lineup ω}, m.rest = l.rest → m.settled k = l.settled k →
        m.noted = l.noted → m.arrivals = l.arrivals → m.due k = l.due k := by
      intro m hrest hsettled hnoted harrivals
      rw [due, due, hrest, hsettled, hnoted, harrivals]
    simp only [learn]
    split
    next hfree => exact hsame (by simp [rest, hfree, hrest]) rfl rfl rfl
    next => exact hsame (by simp [rest, hrest]) rfl rfl rfl

/-- No move changes what tasks come to. -/
theorem due_step {l m : Lineup ω} {move : Move} (h : Orderly l) (hstep : Step k l move m) :
    m.due k = l.due k := by
  cases hstep with
  | @first t ahead hahead hnone =>
    have hsettled : l.settled k = (l.shared, []) := if_neg (by simp [h.awake hnone])
    have hne : l.rest ≠ [] := by simp [rest, hahead]
    have hrest : l.holder.toList ++ l.queue ++ (l.asleep ++ [t]) ++ ahead = l.rest := by
      simp [rest, hahead]
    have hbegin := Diagram.serve_begin k l.shared hne
    rw [due, due, hsettled, hbegin, Option.map_map]
    simp only [settled, if_true, rest, hrest, Shared.risen_underWay hnone]
    refine congrArg (fun f => Option.map f _) (funext fun r => ?_)
    simp only [Function.comp_apply, Turn.heralded_heralded, Shared.notices_of_begin hnone,
      List.append_nil, List.append_assoc]
    rfl
  | @begin t ahead startup hahead hkept =>
    by_cases hends : startup = .pending
    · subst hends
      have hrest : ({ l with ahead }.learn t .pending).rest = l.rest := by
        simp [learn, rest, hahead]
      rw [due, due, hrest]
      rfl
    · have hasleep : l.asleep = [] := by
        by_contra hne
        have hpending := h.waking hne (by simp [hahead])
        rw [hkept] at hpending
        exact hends (Option.some.inj hpending)
      exact due_learn h (by simp [hasleep, hahead]) hkept hends
  | rise hstarting hahead hends => simp [due, settled, rest, hstarting]
  | wake hasleep hkept hends => exact due_learn h (by simp [hasleep]) hkept hends
  | pass hfree hqueue => simp [due, settled, rest, hfree, hqueue]
  | answer hholder hlive hrequest =>
    have hstarting := h.awake hlive (by simp)
    refine due_arrive hstarting hstarting (by simp [rest, hholder]) rfl rfl ?_
    rw [Diagram.check_eq, Shared.session_of_some hlive]
    simp only [Shared.outcome?, Diagram.checkBehind, hrequest]
    rfl

/-- What is left to do. Every move lessens it. -/
def weight (l : Lineup ω) : Nat :=
  5 * l.ahead.length + l.starting.toNat + 3 * l.asleep.length + 2 * l.queue.length +
    l.holder.toList.length

/-- A task that learns what came of the start-up weighs less than one that sleeps. -/
theorem weight_learn (l : Lineup ω) (t : Turn) (startup : Startup) :
    (l.learn t startup).weight ≤ l.weight + 3 ∧
      (startup ≠ .pending → (l.learn t startup).weight ≤ l.weight + 2) := by
  cases startup with
  | pending => simp [learn, weight]; omega
  | failed fault => exact ⟨Nat.le_add_right _ _, fun _ => Nat.le_add_right _ _⟩
  | live n =>
    simp only [learn]
    split
    next hfree => simp [weight, hfree]
    next => simp [weight]; omega

theorem weight_step {l m : Lineup ω} {move : Move} (h : Orderly l) (hstep : Step k l move m) :
    m.weight < l.weight := by
  cases hstep with
  | first hahead hnone => simp [weight, hahead, h.awake hnone]; omega
  | @begin t ahead startup hahead hkept =>
    have hlearn := (weight_learn { l with ahead } t startup).1
    simp only [weight, hahead, List.length_cons] at hlearn ⊢
    omega
  | rise hstarting hahead hends => simp [weight, hstarting]
  | @wake t asleep startup hasleep hkept hends =>
    have hlearn := (weight_learn { l with asleep } t startup).2 hends
    simp only [weight, hasleep, List.length_cons] at hlearn ⊢
    omega
  | pass hfree hqueue => simp [weight, hfree, hqueue]; omega
  | answer hholder hlive hrequest => simp [weight, arrive, hholder]

/-- As long as a task is left and what tasks come to is known, there is a move. -/
theorem exists_step {l : Lineup ω} (h : Orderly l) (hdue : l.due k ≠ none)
    (hrest : l.rest ≠ []) : ∃ move m, Step k l move m := by
  have hfirst : ∀ t turns, l.rest = t :: turns →
      Diagram.check k t.code (l.settled k).1 ≠ none := by
    intro t turns hturns hnone
    refine hdue ?_
    rw [due, hturns, Turn.serve, show (Diagram.checker k).check t.code _ = none from hnone]
    rfl
  cases hahead : l.ahead with
  | cons t ahead =>
    cases hkept : l.shared.current? with
    | none => exact ⟨_, _, .first hahead hkept⟩
    | some startup => exact ⟨_, _, .begin hahead hkept⟩
  | nil =>
    cases hholder : l.holder with
    | some t =>
      obtain ⟨n, hlive⟩ := h.locked (.inl (by simp [hholder]))
      have hcheck := hfirst t (l.queue ++ l.asleep ++ l.ahead) (by simp [rest, hholder])
      rw [settled, if_neg (by simp [h.awake hlive]), Diagram.check_eq,
        Shared.session_of_some hlive] at hcheck
      obtain ⟨⟨answer, world⟩, hrequest⟩ : ∃ r,
          k.request n (Diagram.payload t.code) l.shared.world = some r := by
        refine Option.ne_none_iff_exists'.mp fun hnone => hcheck ?_
        simp [Shared.outcome?, Diagram.checkBehind, hnone]
      exact ⟨_, _, .answer hholder hlive hrequest⟩
    | none =>
      cases hqueue : l.queue with
      | cons t queue => exact ⟨_, _, .pass hholder hqueue⟩
      | nil =>
        obtain ⟨t, asleep, hasleep⟩ : ∃ t asleep, l.asleep = t :: asleep :=
          List.exists_cons_of_ne_nil (by simpa [rest, hahead, hholder, hqueue] using hrest)
        obtain ⟨startup, hkept⟩ :=
          Option.ne_none_iff_exists'.mp (h.sleeping (by simp [hasleep]))
        by_cases hends : startup = .pending
        · -- The start-up that they sleep for has yet to end, or else nothing would be known.
          subst hends
          have hcheck := hfirst t asleep (by simp [rest, hahead, hholder, hqueue, hasleep])
          rw [Diagram.check_eq] at hcheck
          cases hstarting : l.starting with
          | true =>
            refine ⟨_, _, .rise hstarting hahead fun hpending => hcheck ?_⟩
            have hrisen := Shared.current?_risen k l.shared
            rw [settled, if_pos hstarting, Shared.session_of_some hrisen, hpending]
            rfl
          | false =>
            refine absurd ?_ hcheck
            rw [settled, if_neg (by simp [hstarting]), Shared.session_of_some hkept]
            rfl
        · exact ⟨_, _, .wake hasleep hkept hends⟩

/-- Where it is known what tasks come to, they can be brought to their end. -/
theorem course_to_rest {l : Lineup ω} (h : Orderly l) (hdue : l.due k ≠ none) :
    ∃ ms m, Course (Step k) l ms m ∧ m.rest = [] := by
  by_cases hrest : l.rest = []
  · exact ⟨[], l, .start, hrest⟩
  · obtain ⟨move, m, hstep⟩ := exists_step h hdue hrest
    have hless := weight_step h hstep
    obtain ⟨ms, u, hcourse, hend⟩ := course_to_rest (h.step hstep) (by rwa [due_step h hstep])
    exact ⟨_, u, .cons hstep hcourse, hend⟩
termination_by l.weight

/-- Tasks that take turns come to what serving them one at a time comes to, in every course that
leaves none of them. From every moment on there is such a course, if serving them one at a time
comes to anything at all. -/
theorem served_in_order (k : Keeper ω) (n : Nat) (slots : List Pipeline.Slot) (s : Shared ω) :
    ∀ ms l, Course (Step k) (ready n slots s) ms l →
      (l.rest = [] →
        Pipeline.serve (Diagram.checker k) n slots s = some (l.arrivals, l.shared)) ∧
      (Pipeline.serve (Diagram.checker k) n slots s ≠ none →
        ∃ ns m, Course (Step k) l ns m ∧ m.rest = []) := by
  intro ms l hcourse
  have hkept : Orderly l ∧ l.due k = (ready n slots s).due k :=
    hcourse.preserves (P := fun l => Orderly l ∧ l.due k = (ready n slots s).due k)
      (fun l _ m h hstep => ⟨h.1.step hstep, (due_step h.1 hstep).trans h.2⟩)
      ⟨orderly_ready n slots s, rfl⟩
  obtain ⟨horderly, hdue⟩ := hkept
  rw [due_ready] at hdue
  rw [← hdue]
  refine ⟨fun hrest => ?_, course_to_rest horderly⟩
  have hstarting : l.starting = false := by
    by_contra hs
    refine (horderly.starting (by simpa using hs)).2 ?_
    simp only [rest, List.append_eq_nil_iff] at hrest
    exact hrest.1.2
  rw [due, hrest, settled, if_neg (by simp [hstarting])]
  simp [Turn.serve, Turn.heralded]

/-- A run over diagrams reports what comes of its tasks, in whatever way they took turns. -/
theorem runFull_of_rest (p : Pipeline) {fragments : List Fragment} {s : Shared ω} {ms : List Move}
    {l : Lineup ω} (hcourse : Course (Step k) (ready 0 (fragments.map p.slot) s) ms l)
    (hrest : l.rest = []) : p.runFull (Diagram.checker k) fragments s =
      (p.gather "mermaid" fragments l.arrivals).map fun events => (events, l.shared) := by
  have hserve := (served_in_order k 0 (fragments.map p.slot) s ms l hcourse).1 hrest
  have hname : (Diagram.checker k).name = "mermaid" := rfl
  rw [Pipeline.runFull, hserve, Option.bind_eq_bind, Option.bind_some, hname]
  dsimp only
  cases p.gather "mermaid" fragments l.arrivals <;> rfl

end Lineup

end FragmentLint
