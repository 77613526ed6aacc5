import FragmentLint.Proofs.Handshake

/-!
# The end of a session

A session may be closed and killed at any time, by several callers and in the midst of requests.
Who closes it closes the input of its process, gives the process time to end by itself, and kills
it if it has not. That is followed here step by step, beside the traffic of requests: the process
may end whenever it likes, the time that it is given may be over at any moment until then, callers
may be cancelled, and a process that was killed may take a while to end. A closing comes to its end
only behind the end of the process, and nothing that is done to the session from then on has any
effect.

How far each closing has come is kept for all of them, in the order in which they began.
-/
namespace FragmentLint

namespace Child

theorem write_inputClosed {p q : Child} {line : Text} (h : p.write line = .ok q) :
    q.inputClosed = p.inputClosed := by
  simp only [write] at h
  split at h
  · cases h
  · obtain rfl := Except.ok.inj h
    exact emit_inputClosed _ _ _ _

end Child

namespace Session

/-- The process of a session has ended, and whatever is done to the session leaves it as it is.
Requests fail, and nothing is written for them. -/
structure Spent [Host] (s : Session) (code : Int) : Prop where
  exit : s.child.exit = some code
  close : s.close = (s, [])
  kill : s.kill = s
  request : ∀ payload, s.request payload = some (.error (.bridge (.gone code)), s)
  requests : ∀ payloads,
    s.requests payloads = some (payloads.map fun _ => .error (.bridge (.gone code)), s)

theorem spent_of_exit [Host] {s : Session} {code : Int} (hexit : s.child.exit = some code) :
    s.Spent code where
  exit := hexit
  close := by
    have hcloses := s.closes
    generalize s.close = r at hcloses ⊢
    cases hcloses with
    | gone => rfl
    | leaves halive => simp [hexit] at halive
    | stubborn halive => simp [hexit] at halive
  kill := by
    have hdead : s.child.isAlive = false := Child.isAlive_eq_false_iff.mpr ⟨code, hexit⟩
    rw [Session.kill, Child.kill, Child.finish_of_not_isAlive hdead]
  request := by
    intro payload
    simp [Session.request, hexit]
  requests := requests_of_exit hexit

end Session

namespace Traffic

theorem Step.inputClosed [Host] {t u : Traffic} {m : Move} (h : Step t m u) :
    u.session.child.inputClosed = t.session.child.inputClosed := by
  cases h with
  | send hfree hqueue hexit hwrite => exact Child.write_inputClosed hwrite
  | skip _ hreads => exact hreads.inputClosed
  | reply _ hreads => exact hreads.inputClosed
  | emit => exact Child.emit_inputClosed _ _ _ _
  | _ => rfl

/-- Once the process has ended, all requests come to an end: the one under way, if there is one,
and behind it those that wait for their turn. -/
theorem course_of_exit [Host] {t : Traffic} {code : Int}
    (hexit : t.session.child.exit = some code) :
    ∃ ms u, Course Step t ms u ∧ u.endings.map Ending.call =
      t.endings.map Ending.call ++ (t.waiting.map Sent.call).toList ++ t.queue := by
  have hserved : ∀ {t : Traffic}, t.waiting = none → t.session.child.exit = some code →
      ∃ ms u, Course Step t ms u ∧
        u.endings.map Ending.call = t.endings.map Ending.call ++ t.queue := by
    intro t hfree hexit
    obtain ⟨ms, u, hcourse, -, hcalls, -⟩ :=
      course_of_requests hfree (Session.requests_of_exit hexit _)
    exact ⟨ms, u, hcourse, hcalls⟩
  cases hwaiting : t.waiting with
  | none => simpa using hserved hwaiting hexit
  | some r =>
    have hhears : t.session.hear? ≠ none := by
      intro hnone
      have halive := (Session.hear?_eq_none_iff.mp hnone).1
      simp [hexit] at halive
    obtain ⟨⟨heard, s⟩, hhear⟩ := Option.ne_none_iff_exists'.mp hhears
    obtain ⟨ms, u, hcourse, -, hqueue, hfree, hendings⟩ := course_of_hear hwaiting hhear
    obtain ⟨ms', v, hcourse', hcalls⟩ := hserved hfree (stopped_of_course hcourse hexit).exit
    refine ⟨ms ++ ms', v, hcourse.append hcourse', ?_⟩
    rw [hcalls, hqueue, hendings]
    simp

end Traffic

/-- How far a closing has come. -/
inductive Closing where
  /-- The input is closed, and the process is given time to end. -/
  | waiting
  /-- The time was over, and the process was killed. -/
  | killing
  /-- The closing came to its end, and had the process killed or not. -/
  | done (killed : Bool)
  /-- Who closed the session was cancelled before that. -/
  | cancelled
  deriving DecidableEq, Repr

namespace Closing

/-- What may happen to a closing. -/
inductive Event where
  /-- The time is over that it gives the process. -/
  | expire
  /-- It sees that the process has ended. -/
  | settle
  /-- Who closes the session is cancelled. -/
  | cancel
  deriving DecidableEq, Repr

/-- How a closing goes on, given the exit code of the process if it has ended. -/
inductive Step (exit : Option Int) : Closing → Event → Closing → Prop where
  | expire (halive : exit = none) : Step exit .waiting .expire .killing
  | inTime {code : Int} (hexit : exit = some code) : Step exit .waiting .settle (.done false)
  | late {code : Int} (hexit : exit = some code) : Step exit .killing .settle (.done true)
  | cancelWaiting : Step exit .waiting .cancel .cancelled
  | cancelKilling : Step exit .killing .cancel .cancelled

end Closing

/-- A session with the requests that are made of it and those who close it. -/
structure Lifetime where
  traffic : Traffic
  /-- The closings that were begun, in order. -/
  closings : List Closing := []
  /-- Whether the process was killed. It may not have ended yet. -/
  signalled : Bool := false

namespace Lifetime

def begin (s : Session) : Lifetime :=
  { traffic := .idle s }

abbrev child (t : Lifetime) : Child :=
  t.traffic.session.child

def withChild (t : Lifetime) (child : Child) : Lifetime :=
  { t with traffic := { t.traffic with session := { t.traffic.session with child } } }

/-- What happens next. -/
inductive Move where
  /-- A caller makes a request, one is served, an answer is read, or the process writes. -/
  | traffic (m : Traffic.Move)
  /-- The caller of a request is cancelled. -/
  | giveUp
  /-- A request has its turn while the input is closed. -/
  | turnAway
  /-- The process ends by itself. -/
  | exit (code : Int)
  /-- Somebody closes the session. -/
  | close
  /-- The closing of a given place goes on. -/
  | closing (n : Nat) (e : Closing.Event)
  /-- Somebody kills the session. -/
  | kill
  /-- A process that was killed ends by that. -/
  | fall

/-- How the lifetime of a session goes on. Whether lines still reach a process whose input is closed
is left open. -/
inductive Step [Host] : Lifetime → Move → Lifetime → Prop where
  | traffic {t : Lifetime} {m : Traffic.Move} {u : Traffic} (h : Traffic.Step t.traffic m u) :
      Step t (.traffic m) { t with traffic := u }
  | leaveQueue {t : Lifetime} {before after : List Call} {c : Call}
      (hqueue : t.traffic.queue = before ++ c :: after) :
      Step t .giveUp { t with traffic := { t.traffic with queue := before ++ after } }
  | leaveAnswer {t : Lifetime} {r : Sent} (hwaiting : t.traffic.waiting = some r) :
      Step t .giveUp { t with traffic := { t.traffic with waiting := none } }
  | turnAway {t : Lifetime} {before after : List Call} {c : Call} {reason : Text}
      (hfree : t.traffic.waiting = none) (hqueue : t.traffic.queue = before ++ c :: after)
      (hexit : t.child.exit = none) (hinput : t.child.inputClosed = true) :
      Step t .turnAway
        { t with
          traffic := { t.traffic with
            session := { t.traffic.session with last := t.traffic.session.last + 1 }
            queue := before ++ after
            endings := t.traffic.endings ++ [⟨c, none, .error (.bridge (.closedInput reason))⟩] } }
  | exit {t : Lifetime} {code : Int} : Step t (.exit code) (t.withChild (t.child.finish code))
  | found {t : Lifetime} {code : Int} (hexit : t.child.exit = some code) :
      Step t .close { t with closings := t.closings ++ [.done false] }
  | shut {t : Lifetime} (hexit : t.child.exit = none) :
      Step t .close { t.withChild t.child.shut with closings := t.closings ++ [.waiting] }
  | closing {t : Lifetime} {n : Nat} {c d : Closing} {e : Closing.Event}
      (hclosing : t.closings[n]? = some c) (h : Closing.Step t.child.exit c e d) :
      Step t (.closing n e)
        { t with
          closings := t.closings.set n d
          signalled := t.signalled || e = .expire }
  | kill {t : Lifetime} (hexit : t.child.exit = none) : Step t .kill { t with signalled := true }
  | spare {t : Lifetime} {code : Int} (hexit : t.child.exit = some code) : Step t .kill t
  | fall {t : Lifetime} (hsignalled : t.signalled = true) : Step t .fall (t.withChild t.child.kill)

/-- What a step makes of the closing of a given place, if there is one. -/
inductive Advance (t u : Lifetime) (n : Nat) : Move → Option Closing → Option Closing → Prop where
  | same {m : Move} {c : Option Closing} (hm : ∀ e, m ≠ .closing n e) : Advance t u n m c c
  | found {code : Int} (hexit : t.child.exit = some code) :
      Advance t u n .close none (some (.done false))
  | shut (hexit : t.child.exit = none) (hinput : u.child.inputClosed = true) :
      Advance t u n .close none (some .waiting)
  | own {c d : Closing} {e : Closing.Event} (h : Closing.Step t.child.exit c e d) :
      Advance t u n (.closing n e) (some c) (some d)

theorem getElem?_concat_cases {α : Type} (l : List α) (x : α) (n : Nat) :
    (l ++ [x])[n]? = l[n]? ∨ l[n]? = none ∧ (l ++ [x])[n]? = some x := by
  obtain hlt | rfl | hgt := Nat.lt_trichotomy n l.length
  · exact .inl (List.getElem?_append_left hlt)
  · exact .inr ⟨List.getElem?_eq_none (Nat.le_refl _), List.getElem?_concat_length⟩
  · have hpast : (l ++ [x]).length ≤ n := by simpa using Nat.succ_le_of_lt hgt
    exact .inl (by rw [List.getElem?_eq_none (Nat.le_of_lt hgt), List.getElem?_eq_none hpast])

theorem getElem?_set_of_some {α : Type} {l : List α} {n : Nat} {x : α} (h : l[n]? = some x)
    (y : α) : (l.set n y)[n]? = some y :=
  List.getElem?_set_self (List.getElem?_eq_some_iff.mp h).1

section Step

variable {s : Session} {t u v : Lifetime} {ms : List Move} {m : Move} {n : Nat} {code : Int}

theorem Step.advance [Host] (h : Step t m u) (n : Nat) :
    Advance t u n m t.closings[n]? u.closings[n]? := by
  cases h with
  | found hexit =>
    obtain hold | ⟨hnone, hnew⟩ := getElem?_concat_cases t.closings (.done false) n
    · rw [hold]
      exact .same (by simp)
    · rw [hnone, hnew]
      exact .found hexit
  | shut hexit =>
    obtain hold | ⟨hnone, hnew⟩ := getElem?_concat_cases t.closings .waiting n
    · rw [hold]
      exact .same (by simp)
    · rw [hnone, hnew]
      exact .shut hexit rfl
  | @closing k c d e hclosing hstep =>
    obtain rfl | hne := Decidable.eq_or_ne k n
    · rw [hclosing, getElem?_set_of_some hclosing]
      exact .own hstep
    · rw [List.getElem?_set_ne hne]
      exact .same (by simp [hne])
  | _ => exact .same (by simp)

/-- What is still to come once the process has ended: the traffic has stopped, and closings that
begin find nothing to do. -/
structure Final (t : Lifetime) (code : Int) (u : Lifetime) : Prop where
  stopped : Traffic.Stopped t.traffic code u.traffic
  closings : ∀ n : Nat, t.closings[n]? = none →
    u.closings[n]? = none ∨ u.closings[n]? = some (.done false)

theorem final_self (hexit : t.child.exit = some code) : Final t code t where
  stopped := ⟨hexit, rfl, fun _ hr => hr, [], (List.append_nil _).symm, by simp⟩
  closings := fun _ hnone => .inl hnone

theorem Final.step [Host] (h : Final t code u) (hstep : Step u m v) : Final t code v := by
  have hexit : u.child.exit = some code := h.stopped.exit
  have hdead : u.child.isAlive = false := Child.isAlive_eq_false_iff.mpr ⟨code, hexit⟩
  constructor
  case stopped =>
    obtain ⟨-, hwritten, hwaits, hendings⟩ := h.stopped
    cases hstep with
    | traffic hmove => exact h.stopped.step hmove
    | leaveQueue hqueue => exact ⟨hexit, hwritten, hwaits, hendings⟩
    | leaveAnswer hwaiting => exact ⟨hexit, hwritten, by simp, hendings⟩
    | turnAway hfree hqueue halive => simp [hexit] at halive
    | exit =>
      rw [Child.finish_of_not_isAlive hdead]
      exact h.stopped
    | found => exact h.stopped
    | shut halive => simp [hexit] at halive
    | closing => exact h.stopped
    | kill halive => simp [hexit] at halive
    | spare => exact h.stopped
    | fall =>
      rw [Child.kill, Child.finish_of_not_isAlive hdead]
      exact h.stopped
  case closings =>
    -- A closing that begins now finds the process gone, so it never waits and never kills.
    intro n hnone
    have hadvance := hstep.advance n
    generalize v.closings[n]? = d at hadvance ⊢
    obtain hold | hold := h.closings n hnone
    · rw [hold] at hadvance
      cases hadvance with
      | same => exact .inl rfl
      | found => exact .inr rfl
      | shut halive => simp [hexit] at halive
    · rw [hold] at hadvance
      cases hadvance with
      | same => exact .inr rfl
      | own hown => cases hown

theorem final_of_course [Host] (h : Course Step t ms u) (hexit : t.child.exit = some code) :
    Final t code u :=
  h.preserves (fun _ _ _ hfinal hstep => hfinal.step hstep) (final_self hexit)

/-- The time of a closing was over when the input of the process had been closed and the process had
not ended. -/
def Overdue [Host] (s : Session) (ms : List Move) (n : Nat) : Prop :=
  ∃ before after t, ms = before ++ .closing n .expire :: after ∧ Course Step (begin s) before t ∧
    t.closings[n]? = some .waiting ∧ t.child.inputClosed = true ∧ t.child.exit = none

/-- What is true of a closing that has come so far, after given moves. -/
def Told [Host] (s : Session) (ms : List Move) (t : Lifetime) (n : Nat) : Option Closing → Prop
  | none => .closing n .expire ∉ ms
  | some .waiting => .closing n .expire ∉ ms ∧ t.child.inputClosed = true
  | some .killing => Overdue s ms n ∧ t.signalled = true
  | some (.done killed) => (∃ code, t.child.exit = some code) ∧
      if killed then Overdue s ms n else .closing n .expire ∉ ms
  | some .cancelled => True

theorem Step.inputClosed [Host] (h : Step t m u) (hinput : t.child.inputClosed = true) :
    u.child.inputClosed = true := by
  cases h with
  | traffic hmove => exact hmove.inputClosed.trans hinput
  | exit => exact (Child.finish_inputClosed _ _).trans hinput
  | shut => rfl
  | fall => exact (Child.finish_inputClosed _ _).trans hinput
  | _ => exact hinput

theorem Step.signalled [Host] (h : Step t m u) (hsignalled : t.signalled = true) :
    u.signalled = true := by
  cases h with
  | closing => simp [hsignalled]
  | kill => rfl
  | _ => exact hsignalled

theorem Step.exit_some [Host] (h : Step t m u) (hexit : ∃ code, t.child.exit = some code) :
    ∃ code, u.child.exit = some code := by
  obtain ⟨code, hcode⟩ := hexit
  exact ⟨code, ((final_self hcode).step h).stopped.exit⟩

theorem Overdue.snoc [Host] (h : Overdue s ms n) (m : Move) : Overdue s (ms ++ [m]) n := by
  obtain ⟨before, after, t, rfl, hcourse⟩ := h
  exact ⟨before, after ++ [m], t, by simp, hcourse⟩

theorem not_mem_snoc (h : .closing n .expire ∉ ms) (hm : m ≠ .closing n .expire) :
    .closing n .expire ∉ ms ++ [m] := by
  simp [h, hm.symm]

theorem Told.step [Host] {c d : Option Closing} (h : Told s ms t n c) (hc : t.closings[n]? = c)
    (hcourse : Course Step (begin s) ms t) (hstep : Step t m u) (hadvance : Advance t u n m c d) :
    Told s (ms ++ [m]) u n d := by
  cases hadvance with
  | same hm =>
    -- What was said of the moves so far is not touched by a move of another kind, and what was said
    -- of the process is never taken back.
    have hexpire := hm .expire
    match c, h with
    | none, h => exact not_mem_snoc h hexpire
    | some .waiting, h => exact ⟨not_mem_snoc h.1 hexpire, hstep.inputClosed h.2⟩
    | some .killing, h => exact ⟨h.1.snoc m, hstep.signalled h.2⟩
    | some (.done true), h => exact ⟨hstep.exit_some h.1, h.2.snoc m⟩
    | some (.done false), h => exact ⟨hstep.exit_some h.1, not_mem_snoc h.2 hexpire⟩
    | some .cancelled, _ => exact trivial
  | found hexit => exact ⟨hstep.exit_some ⟨_, hexit⟩, not_mem_snoc h (by simp)⟩
  | shut hexit hinput => exact ⟨not_mem_snoc h (by simp), hinput⟩
  | own hown =>
    cases hown with
    | expire halive =>
      have hsignalled : u.signalled = true := by
        cases hstep
        simp
      exact ⟨⟨ms, [], t, rfl, hcourse, hc, h.2, halive⟩, hsignalled⟩
    | inTime hexit => exact ⟨hstep.exit_some ⟨_, hexit⟩, not_mem_snoc h.1 (by simp)⟩
    | late hexit => exact ⟨hstep.exit_some ⟨_, hexit⟩, h.1.snoc _⟩
    | cancelWaiting => exact trivial
    | cancelKilling => exact trivial

theorem told_of_course [Host] (h : Course Step (begin s) ms t) (n : Nat) :
    Told s ms t n t.closings[n]? := by
  induction h with
  | start => simp [begin, Told]
  | next hcourse hstep ih => exact ih.step rfl hcourse hstep (hstep.advance n)

theorem Overdue.mem [Host] (h : Overdue s ms n) : .closing n .expire ∈ ms := by
  obtain ⟨before, after, t, rfl, -⟩ := h
  simp

/-- A process that was killed ends by that, and the closing that had it killed sees it. -/
theorem course_of_killing [Host] (hkilling : t.closings[n]? = some .killing)
    (hsignalled : t.signalled = true) :
    ∃ ms u killed, Course Step t ms u ∧ u.closings[n]? = some (.done killed) := by
  obtain ⟨code, hexit⟩ := Child.isAlive_eq_false_iff.mp (Child.isAlive_kill t.child)
  have hfallen := Course.single (Step.fall hsignalled)
  exact ⟨_, _, true, hfallen.next (.closing hkilling (.late hexit)),
    getElem?_set_of_some hkilling _⟩

/-- A closing that is under way sees the process end, which it does when it is killed if not
before. -/
theorem course_to_end [Host] (hcourse : Course Step (begin s) ms t) {c : Closing}
    (hclosing : t.closings[n]? = some c) (hc : c ≠ .cancelled) :
    ∃ ms' u killed, Course Step t ms' u ∧ u.closings[n]? = some (.done killed) := by
  have htold := told_of_course hcourse n
  rw [hclosing] at htold
  cases c with
  | waiting =>
    cases hexit : t.child.exit with
    | some code =>
      exact ⟨_, _, false, .single (.closing hclosing (.inTime hexit)),
        getElem?_set_of_some hclosing _⟩
    | none =>
      have hexpire := Step.closing hclosing (.expire hexit)
      obtain ⟨ms', u, killed, hrest, hdone⟩ :=
        course_of_killing (t := { t with
          closings := t.closings.set n .killing
          signalled := t.signalled || Closing.Event.expire = .expire })
          (getElem?_set_of_some hclosing _) (by simp)
      exact ⟨_, u, killed, .cons hexpire hrest, hdone⟩
  | killing => exact course_of_killing hclosing htold.2
  | done killed => exact ⟨[], t, killed, .start, hclosing⟩
  | cancelled => exact absurd rfl hc

/-- What holds once a closing has come to its end. -/
structure Closed [Host] (s : Session) (ms : List Move) (t : Lifetime) (n : Nat) (killed : Bool)
    (code : Int) : Prop where
  /-- The process has ended, and closing, killing and asking at once do nothing. -/
  spent : t.traffic.session.Spent code
  /-- The closing had it killed exactly if it had not ended when its time was over. -/
  killed : killed = true ↔ Overdue s ms n
  /-- Whatever is done from then on, the exit code stays, nothing is written, and requests fail. -/
  final : ∀ ms' u, Course Step t ms' u → Final t code u
  /-- Each of these requests comes to its end. -/
  answered : ∀ ms' u, Course Step t ms' u → ∃ ms'' v, Course Step u ms'' v ∧
    v.traffic.endings.map Ending.call = u.traffic.endings.map Ending.call ++
      (u.traffic.waiting.map Sent.call).toList ++ u.traffic.queue

theorem course_of_traffic [Host] {moves : List Traffic.Move} {after : Traffic}
    (h : Course Traffic.Step t.traffic moves after) :
    Course Step t (moves.map .traffic) { t with traffic := after } := by
  induction h with
  | start => exact .start
  | next _ hstep ih =>
    rw [List.map_append]
    exact ih.next (.traffic hstep)

theorem closed_of_course [Host] (hcourse : Course Step (begin s) ms t) {killed : Bool}
    (hdone : t.closings[n]? = some (.done killed)) : ∃ code, Closed s ms t n killed code := by
  have htold := told_of_course hcourse n
  rw [hdone] at htold
  obtain ⟨⟨code, hexit⟩, hkilled⟩ := htold
  refine ⟨code, Session.spent_of_exit hexit, ?_, fun _ _ h => final_of_course h hexit, ?_⟩
  · cases killed with
    | true => exact ⟨fun _ => hkilled, fun _ => rfl⟩
    | false => exact ⟨fun h => absurd h (by decide), fun h => absurd h.mem hkilled⟩
  · intro ms' u h
    obtain ⟨moves, after, hmoves, hcalls⟩ :=
      Traffic.course_of_exit (final_of_course h hexit).stopped.exit
    exact ⟨_, _, course_of_traffic hmoves, hcalls⟩

end Step

/-- A session is closed as if nothing else happened meanwhile. -/
structure ClosedAtOnce (t u : Lifetime) (killed : Bool) : Prop where
  traffic : u.traffic = { t.traffic with session := t.traffic.session.close.1 }
  closings : u.closings = t.closings ++ [.done killed]
  notices : t.traffic.session.close.2 =
    if killed then [.stubborn t.child.behaviour.pid] else []
  /-- The process has to be killed if it has not ended and does not end when its input is closed. -/
  stubborn : killed = true ↔ t.child.exit = none ∧ t.child.behaviour.exitAtClose = none

theorem course_of_close [Host] (t : Lifetime) :
    ∃ ms u killed, Course Step t ms u ∧ ClosedAtOnce t u killed := by
  -- The closing that begins here is the last one, and it alone is followed to its end.
  have hbegun : (t.closings ++ [Closing.waiting])[t.closings.length]? = some .waiting :=
    List.getElem?_concat_length
  have hcloses := t.traffic.session.closes
  generalize hclose : t.traffic.session.close = r at hcloses
  cases hcloses with
  | gone hexit =>
    refine ⟨_, _, false, .single (.found hexit), ?_⟩
    constructor
    case traffic => rw [hclose]
    case closings => rfl
    case notices => rw [hclose]; rfl
    case stubborn => simp [hexit]
  | @leaves code hexit hcode =>
    have hended : (t.child.shut.finish code).exit = some code :=
      Child.exit_finish (p := t.child.shut) hexit code
    have hshut := Course.single (Step.shut hexit)
    refine ⟨_, _, false,
      (hshut.next (@Step.exit _ _ code)).next (.closing hbegun (.inTime hended)), ?_⟩
    constructor
    case traffic => rw [hclose]; rfl
    case closings => simp [withChild]
    case notices => rw [hclose]; rfl
    case stubborn => simp [hcode]
  | stubborn hexit hcode =>
    have hkilling := getElem?_set_of_some hbegun .killing
    have hended : t.child.shut.kill.exit = some Child.killedCode :=
      Child.exit_finish (p := t.child.shut) hexit _
    have hexpired :=
      (Course.single (Step.shut hexit)).next (Step.closing hbegun (.expire hexit))
    have hfallen := hexpired.next (.fall (by simp))
    refine ⟨_, _, true, hfallen.next (.closing hkilling (.late hended)), ?_⟩
    constructor
    case traffic => rw [hclose]; rfl
    case closings => simp [withChild]
    case notices => rw [hclose]; rfl
    case stubborn => simp [hexit, hcode]

theorem course_of_kill [Host] (t : Lifetime) : ∃ ms u, Course Step t ms u ∧
    u.traffic = { t.traffic with session := t.traffic.session.kill } ∧
    u.closings = t.closings := by
  cases hexit : t.child.exit with
  | some code =>
    refine ⟨_, t, .single (.spare hexit), ?_, rfl⟩
    rw [(Session.spent_of_exit hexit).kill]
  | none =>
    have hkilled := Course.single (Step.kill hexit)
    exact ⟨_, _, hkilled.next (.fall rfl), rfl, rfl⟩

/-- Whatever callers and the process do meanwhile, a closing that came to its end leaves a process
that has ended, which it had killed exactly if it had to, and nothing has any effect on the session
from then on. A closing that is under way can always come to its end. Closing and killing at once
are such courses, from every moment. -/
theorem closing_is_final [Host] (s : Session) :
    (∀ ms t (n : Nat) killed, Course Step (begin s) ms t →
      t.closings[n]? = some (.done killed) → ∃ code, Closed s ms t n killed code) ∧
    (∀ ms t (n : Nat) c, Course Step (begin s) ms t → t.closings[n]? = some c → c ≠ .cancelled →
      ∃ ms' u killed, Course Step t ms' u ∧ u.closings[n]? = some (.done killed)) ∧
    (∀ t : Lifetime, (∃ ms u killed, Course Step t ms u ∧ ClosedAtOnce t u killed) ∧
      ∃ ms u, Course Step t ms u ∧
        u.traffic = { t.traffic with session := t.traffic.session.kill } ∧
        u.closings = t.closings) ∧
    s.close.1.Spent s.child.codeOnceClosed := by
  refine ⟨?_, ?_, ?_, Session.spent_of_exit s.exit_close⟩
  · intro ms t n killed hcourse hdone
    exact closed_of_course hcourse hdone
  · intro ms t n c hcourse hclosing hc
    exact course_to_end hcourse hclosing hc
  · intro t
    exact ⟨course_of_close t, course_of_kill t⟩

end Lifetime

end FragmentLint
