import FragmentLint.Proofs.Lockstep
import FragmentLint.Proofs.SessionFaults

/-!
# How a session begins

Before a session is used, its process has to say that it is ready. Waiting for that is followed
here step by step: the process may write and end at any time, its output is read piece by piece, and
where there is a limit to waiting it may be reached at any time. However waiting ends, the session
is ready and its process untouched, or it is refused and its process has ended. Only a piece that
cannot be read leaves a process behind that nobody cares for.

The pieces that were read are kept for the record only. No step looks at them.
-/
namespace FragmentLint

namespace Child

/-- The exit code of a process once it was closed: its own if it had ended, else that with which it
ends when its input is closed, else that of a process that was killed. -/
def codeOnceClosed (p : Child) : Int :=
  p.exit.getD (p.behaviour.exitAtClose.getD killedCode)

theorem exit_finish {p : Child} (h : p.exit = none) (code : Int) :
    (p.finish code).exit = some code := by
  have halive : p.isAlive = true := by simp [isAlive, h]
  rw [finish, if_pos halive]
  split <;> rfl

/-- A process whose input is closed, and that has done nothing about it yet. -/
def shut (p : Child) : Child :=
  { p with inputClosed := true }

theorem finish_inputClosed (p : Child) (code : Int) :
    (p.finish code).inputClosed = p.inputClosed := by
  unfold finish
  split
  · split <;> rfl
  · rfl

theorem emit_inputClosed (p : Child) (output errors : Text) (exit : Option Int) :
    (p.emit output errors exit).inputClosed = p.inputClosed := by
  unfold emit
  split
  · cases exit with
    | none => rfl
    | some code => exact finish_inputClosed _ code
  · rfl

end Child

namespace Session

/-- What closing a session comes to, with what is noted. -/
inductive Closes (s : Session) : Session × List Notice → Prop where
  /-- The process had ended before. -/
  | gone {code : Int} (hexit : s.child.exit = some code) : Closes s (s, [])
  /-- The process ends when its input is closed. -/
  | leaves {code : Int} (hexit : s.child.exit = none)
      (hcode : s.child.behaviour.exitAtClose = some code) :
      Closes s ({ s with child := s.child.shut.finish code }, [])
  /-- The process has to be killed. -/
  | stubborn (hexit : s.child.exit = none) (hcode : s.child.behaviour.exitAtClose = none) :
      Closes s ({ s with child := s.child.shut.kill }, [.stubborn s.child.behaviour.pid])

theorem closes (s : Session) : s.Closes s.close := by
  unfold close
  cases hexit : s.child.exit with
  | some code =>
    have hdead : s.child.isAlive = false := Child.isAlive_eq_false_iff.mpr ⟨code, hexit⟩
    rw [if_neg (by simp [hdead])]
    exact .gone hexit
  | none =>
    have halive : s.child.isAlive = true := by simp [Child.isAlive, hexit]
    rw [if_pos halive]
    cases hcode : s.child.behaviour.exitAtClose with
    | some code =>
      have hleft : s.child.closeInput = s.child.shut.finish code := by
        simp [Child.closeInput, Child.shut, halive, hcode]
      simp only [hleft, Child.isAlive_finish, Bool.false_eq_true, if_false]
      exact .leaves hexit hcode
    | none =>
      have hleft : s.child.closeInput = s.child.shut := by
        simp [Child.closeInput, Child.shut, halive, hcode]
      have hstubborn : s.child.shut.isAlive = true := halive
      simp only [hleft, hstubborn, if_true]
      exact .stubborn hexit hcode

/-- A session that was closed has a process that has ended. -/
theorem exit_close (s : Session) : s.close.1.child.exit = some s.child.codeOnceClosed := by
  unfold Child.codeOnceClosed
  have hcloses := s.closes
  generalize s.close = r at hcloses ⊢
  cases hcloses with
  | gone hexit =>
    rw [hexit]
    rfl
  | leaves hexit hcode =>
    rw [hexit, hcode]
    exact Child.exit_finish (p := s.child.shut) hexit _
  | stubborn hexit hcode =>
    rw [hexit, hcode]
    exact Child.exit_finish (p := s.child.shut) hexit _

/-- What is noted when a session is closed: that its process had to be killed. -/
theorem close_notices (s : Session) : s.close.2 =
    if s.child.exit = none ∧ s.child.behaviour.exitAtClose = none
      then [.stubborn s.child.behaviour.pid] else [] := by
  have hcloses := s.closes
  generalize s.close = r at hcloses ⊢
  cases hcloses with
  | gone hexit => simp [hexit]
  | leaves hexit hcode => simp [hcode]
  | stubborn hexit hcode => simp [hexit, hcode]

/-- A process that has ended answers no request of several, and is not asked. -/
theorem requests_of_exit [Host] {s : Session} {code : Int} (h : s.child.exit = some code)
    (payloads : List Json.Members) :
    s.requests payloads = some (payloads.map fun _ => .error (.bridge (.gone code)), s) := by
  induction payloads with
  | nil => rfl
  | cons payload payloads ih => simp [requests, request, h, ih]

end Session

/-- What came of waiting: a message, or why there is none. -/
abbrev Greeting := Except (Sum StartFault ValueFault) Json.Members

/-- A session whose process has yet to say that it is ready. -/
structure Handshake where
  session : Session
  /-- The pieces of output that were read. -/
  read : List Piece := []
  /-- What came of waiting, once that has ended. -/
  greeting : Option Greeting := none

namespace Handshake

/-- A session over a process at which nothing was read. -/
def begin (p : Child) : Handshake :=
  { session := .ofChild p }

/-- What happens next. -/
inductive Move where
  /-- The process writes, and perhaps ends. -/
  | emit (output errors : Text) (exit : Option Int)
  /-- The session reads on. -/
  | hear
  /-- The limit to waiting is reached. -/
  | expire

/-- How waiting goes on. Without time to wait nothing is read. -/
inductive Step [Host] (timeout : Option Number) : Handshake → Move → Handshake → Prop where
  | emit {t : Handshake} {output errors : Text} {exit : Option Int} (hwaits : t.greeting = none) :
      Step timeout t (.emit output errors exit)
        { t with
          session := { t.session with child := t.session.child.emit output errors exit } }
  | skip {t : Handshake} {x : Piece} {session : Session} (hwaits : t.greeting = none)
      (htime : timeout.any Number.isNonpositive = false) (hreads : t.session.Reads x session)
      (hsaid : x.said? = none) :
      Step timeout t .hear { t with session, read := t.read ++ [x] }
  | message {t : Handshake} {x : Piece} {session : Session}
      {said : Except ValueFault Json.Members} (hwaits : t.greeting = none)
      (htime : timeout.any Number.isNonpositive = false) (hreads : t.session.Reads x session)
      (hsaid : x.said? = some said) :
      Step timeout t .hear
        { session
          read := t.read ++ [x]
          greeting := some (said.mapError .inr) }
  | ended {t : Handshake} {code : Int} (hwaits : t.greeting = none)
      (htime : timeout.any Number.isNonpositive = false)
      (hpieces : t.session.child.pieces = []) (hexit : t.session.child.exit = some code) :
      Step timeout t .hear
        { t with
          greeting := some (.error (.inl (.ended code (Session.detail t.session.errors)))) }
  | expire {t : Handshake} (hwaits : t.greeting = none) (hlimit : timeout ≠ none) :
      Step timeout t .expire { t with greeting := some (.error (.inl .timedOut)) }

/-- The first piece that says anything is the last one that was read. -/
def Heard [Host] (read : List Piece) (said : Except ValueFault Json.Members) : Prop :=
  ∃ stray x, read = stray ++ [x] ∧ (∀ y ∈ stray, y.Stray) ∧ x.said? = some said

/-- What waiting has come to says what was read: pieces that are passed over, and behind them the
piece that ended it, if one did. -/
def Tells [Host] (read : List Piece) : Option Greeting → Prop
  | none | some (.error (.inl _)) => ∀ x ∈ read, x.Stray
  | some (.error (.inr fault)) => Heard read (.error fault)
  | some (.ok members) => Heard read (.ok members)

/-- What holds all the time while a session over a process waits to be greeted. -/
structure Attended [Host] (p : Child) (t : Handshake) : Prop where
  tells : Tells t.read t.greeting
  inputClosed : t.session.child.inputClosed = p.inputClosed

variable {p : Child} {timeout : Option Number} {t u : Handshake}

theorem attended_begin [Host] (p : Child) : Attended p (begin p) where
  tells := by simp [begin, Tells]
  inputClosed := rfl

theorem Attended.step [Host] (h : Attended p t) {m : Move} (hstep : Step timeout t m u) :
    Attended p u := by
  obtain ⟨htells, hinput⟩ := h
  cases hstep with
  | emit hwaits => exact ⟨htells, (Child.emit_inputClosed _ _ _ _).trans hinput⟩
  | @skip x _ hwaits htime hreads hsaid =>
    rw [hwaits] at htells
    refine ⟨?_, hreads.inputClosed.trans hinput⟩
    rw [hwaits]
    intro y hy
    obtain hmem | hnew := List.mem_append.mp hy
    · exact htells y hmem
    · rw [List.mem_singleton.mp hnew]
      exact hsaid
  | @message x _ said hwaits htime hreads hsaid =>
    rw [hwaits] at htells
    refine ⟨?_, hreads.inputClosed.trans hinput⟩
    cases said with
    | ok members => exact ⟨t.read, x, rfl, htells, hsaid⟩
    | error fault => exact ⟨t.read, x, rfl, htells, hsaid⟩
  | ended hwaits htime hpieces hexit =>
    rw [hwaits] at htells
    exact ⟨htells, hinput⟩
  | expire hwaits hlimit =>
    rw [hwaits] at htells
    exact ⟨htells, hinput⟩

theorem attended_of_course [Host] {ms : List Move} (h : Course (Step timeout) (begin p) ms t) :
    Attended p t :=
  h.preserves (fun _ _ _ hattended hstep => hattended.step hstep) (attended_begin p)

/-- What connecting to a process makes of the way in which waiting has ended. -/
def settle (p : Child) (timeout : Option Number) (s : Session) :
    Greeting → Except Fault Unit × Session × List Notice
  | .error (.inl fault) => s.refused (.notStarted fault)
  | .error (.inr fault) => (.error (.value fault), s, [])
  | .ok members =>
    if ((members.get? "ready").map Json.isTruthy).getD false then (.ok (), s, [])
    else
      (s.unready p timeout).refused
        (.notLoaded (((members.get? "message").map Json.shown).getD "unknown error"))

theorem connect_eq [Host] (p : Child) (timeout : Option Number) :
    Session.connect p timeout = ((Session.ofChild p).greeting? timeout).map fun (greeting, s) =>
      settle p timeout s greeting :=
  rfl

/-- A piece that was reached goes beyond what can be read. -/
def Garbled [Host] (t : Handshake) (fault : ValueFault) : Prop :=
  ∃ x ∈ t.read, x.said? = some (.error fault)

/-- What connecting to a process comes to once waiting has ended. -/
structure Settled [Host] (p : Child) (t : Handshake) (outcome : Except Fault Unit) (s : Session) :
    Prop where
  /-- The session can be used exactly if the first object that was read says that it is ready. -/
  ready : outcome = .ok () ↔ ∃ members value,
    t.read.findSome? Piece.object? = some members ∧ members.get? "ready" = some value ∧
      value.isTruthy = true
  /-- Then its process is left as it is, and its input as it was. -/
  untouched : outcome = .ok () → s = t.session ∧ s.child.inputClosed = p.inputClosed
  /-- In every other case the parser is unavailable and the process has ended. -/
  refused : outcome ≠ .ok () → (∀ fault, ¬ t.Garbled fault) →
    (∃ fault, outcome = .error (.bridge fault) ∧ fault.isUnavailable = true) ∧
      s.child.exit = some t.session.child.codeOnceClosed
  /-- Unless a piece cannot be read: then its fault is passed on, and the process is left as it
  is. -/
  garbled : ∀ fault, t.Garbled fault → outcome = .error (.value fault) ∧ s = t.session

theorem findSome?_of_strays [Host] {read : List Piece} (h : ∀ x ∈ read, x.Stray) :
    read.findSome? Piece.object? = none :=
  List.findSome?_eq_none_iff.mpr fun x hx => Piece.object?_eq_none_of_stray (h x hx)

theorem not_garbled_of_strays [Host] {t : Handshake} (h : ∀ x ∈ t.read, x.Stray)
    (fault : ValueFault) :
    ¬ t.Garbled fault := by
  rintro ⟨x, hx, hsaid⟩
  rw [show x.said? = none from h x hx] at hsaid
  cases hsaid

/-- The piece that ended waiting is the only one of those read that can be a fault. -/
theorem garbled_iff_of_heard [Host] {t : Handshake} {said : Except ValueFault Json.Members}
    (h : Heard t.read said) {fault : ValueFault} : t.Garbled fault ↔ said = .error fault := by
  obtain ⟨stray, x, hread, hstray, hsaid⟩ := h
  constructor
  · rintro ⟨y, hy, hfault⟩
    rw [hread] at hy
    obtain hmem | hlast := List.mem_append.mp hy
    · rw [show y.said? = none from hstray y hmem] at hfault
      cases hfault
    · rw [List.mem_singleton.mp hlast, hsaid] at hfault
      exact Option.some.inj hfault
  · rintro rfl
    exact ⟨x, by simp [hread], hsaid⟩

theorem settled_of_refused [Host] {fault : BridgeFault} {s : Session}
    (hunavailable : fault.isUnavailable) (hread : ∀ fault, ¬ t.Garbled fault)
    (hready : ∀ members value, t.read.findSome? Piece.object? = some members →
      members.get? "ready" = some value → value.isTruthy = false)
    (hexit : s.child.codeOnceClosed = t.session.child.codeOnceClosed) :
    Settled p t (s.refused fault).1 (s.refused fault).2.1 where
  ready := by
    constructor
    · intro h
      cases h
    · rintro ⟨members, value, hmembers, hvalue, htrue⟩
      rw [hready members value hmembers hvalue] at htrue
      cases htrue
  untouched := by
    intro h
    cases h
  refused := by
    intro _ _
    refine ⟨⟨fault, rfl, hunavailable⟩, ?_⟩
    rw [← hexit]
    exact s.exit_close
  garbled := fun f hf => absurd hf (hread f)

theorem codeOnceClosed_unready (p : Child) (s : Session) (timeout : Option Number) :
    (s.unready p timeout).child.codeOnceClosed = s.child.codeOnceClosed := by
  unfold Session.unready
  split <;> rfl

theorem getD_isTruthy_iff (value : Option Json) :
    (value.map Json.isTruthy).getD false = true ↔ ∃ v, value = some v ∧ v.isTruthy = true := by
  cases value <;> simp

theorem settled [Host] (h : Attended p t) {greeting : Greeting}
    (hgreeting : t.greeting = some greeting) (timeout : Option Number) :
    Settled p t (settle p timeout t.session greeting).1
      (settle p timeout t.session greeting).2.1 := by
  obtain ⟨htells, hinput⟩ := h
  rw [hgreeting] at htells
  cases greeting with
  | error fault =>
    cases fault with
    | inl fault =>
      refine settled_of_refused rfl (not_garbled_of_strays htells) ?_ rfl
      intro members value hmembers
      rw [findSome?_of_strays htells] at hmembers
      cases hmembers
    | inr fault =>
      have hgarbled : t.Garbled fault := (garbled_iff_of_heard htells).mpr rfl
      have hnone : t.read.findSome? Piece.object? = none := by
        obtain ⟨stray, x, hread, hstray, hsaid⟩ := htells
        rw [hread, List.findSome?_append, findSome?_of_strays hstray]
        simp [Piece.object?, hsaid, Except.toOption]
      have hbroken : settle p timeout t.session (.error (.inr fault)) =
          (.error (.value fault), t.session, []) := rfl
      rw [hbroken]
      refine ⟨⟨by simp, ?_⟩, by simp, fun _ hread => absurd hgarbled (hread fault), ?_⟩
      · rintro ⟨members, value, hmembers, -⟩
        rw [hnone] at hmembers
        cases hmembers
      · intro f hf
        obtain rfl := Except.error.inj ((garbled_iff_of_heard htells).mp hf)
        exact ⟨rfl, rfl⟩
  | ok members =>
    have hread : ∀ fault, ¬ t.Garbled fault := fun fault hgarbled => by
      cases (garbled_iff_of_heard htells).mp hgarbled
    have hfirst : t.read.findSome? Piece.object? = some members := by
      obtain ⟨stray, x, hread, hstray, hsaid⟩ := htells
      rw [hread, List.findSome?_append, findSome?_of_strays hstray]
      simp [Piece.object?, hsaid, Except.toOption]
    by_cases hready : ((members.get? "ready").map Json.isTruthy).getD false = true
    · have hsettle : settle p timeout t.session (.ok members) = (.ok (), t.session, []) :=
        if_pos hready
      obtain ⟨value, hvalue, htrue⟩ := (getD_isTruthy_iff _).mp hready
      rw [hsettle]
      refine ⟨⟨fun _ => ⟨members, value, hfirst, hvalue, htrue⟩, fun _ => rfl⟩, ?_, ?_, ?_⟩
      · exact fun _ => ⟨rfl, hinput⟩
      · exact fun hne => absurd rfl hne
      · exact fun fault hgarbled => absurd hgarbled (hread fault)
    · have hsettle : settle p timeout t.session (.ok members) =
          (t.session.unready p timeout).refused
            (.notLoaded (((members.get? "message").map Json.shown).getD "unknown error")) :=
        if_neg hready
      rw [hsettle]
      refine settled_of_refused rfl hread ?_ (codeOnceClosed_unready p t.session timeout)
      intro members' value hmembers' hvalue
      obtain rfl : members = members' := Option.some.inj (hfirst.symm.trans hmembers')
      by_contra htrue
      exact hready ((getD_isTruthy_iff _).mpr ⟨value, hvalue, by simpa using htrue⟩)

/-- Between two moments the session read on, and its process did nothing. -/
structure ReadsOn (t u : Handshake) : Prop where
  session : u.session = { t.session with
    child := { t.session.child with
      unread := u.session.child.unread
      unfinished := u.session.child.unfinished } }
  pieces : u.read ++ u.session.child.pieces = t.read ++ t.session.child.pieces

theorem readsOn_self (t : Handshake) : ReadsOn t t :=
  ⟨rfl, rfl⟩

/-- Reading one piece more. -/
theorem ReadsOn.of_reads {t u : Handshake} {x : Piece} {session : Session}
    (hreads : t.session.Reads x session)
    (h : ReadsOn { t with session, read := t.read ++ [x] } u) : ReadsOn t u where
  session := by
    rw [h.session, hreads.same]
  pieces := by
    rw [h.pieces, hreads.pieces, List.append_assoc]
    rfl

def greetingOf : Session.Heard → Greeting
  | .message members => .ok members
  | .ended code detail => .error (.inl (.ended code detail))
  | .fault fault => .error (.inr fault)

theorem course_of_hear [Host] (hwaits : t.greeting = none)
    (htime : timeout.any Number.isNonpositive = false) {heard : Session.Heard} {s : Session}
    (h : t.session.hear? = some (heard, s)) :
    ∃ ms u, Course (Step timeout) t ms u ∧ ReadsOn t u ∧ u.session = s ∧
      u.greeting = some (greetingOf heard) := by
  generalize hpieces : t.session.child.pieces = pieces
  induction pieces generalizing t with
  | nil =>
    rw [Session.hear?_of_pieces hpieces] at h
    obtain ⟨code, hexit, h⟩ := Option.map_eq_some_iff.mp h
    obtain ⟨rfl, rfl⟩ := Prod.mk.inj h
    exact ⟨_, _, .single (.ended hwaits htime hpieces hexit), ⟨rfl, rfl⟩, rfl, rfl⟩
  | cons x pieces ih =>
    obtain ⟨session, hreads, hrest⟩ := Session.reads_of_pieces hpieces
    rw [Session.hear?_of_reads hreads] at h
    cases hsaid : x.said? with
    | some said =>
      simp only [hsaid, Option.some.injEq, Prod.mk.injEq] at h
      obtain ⟨rfl, rfl⟩ := h
      refine ⟨_, _, .single (.message hwaits htime hreads hsaid), ?_, rfl, ?_⟩
      · exact ⟨hreads.same, by rw [hreads.pieces, List.append_assoc]; rfl⟩
      · cases said <;> rfl
    | none =>
      rw [hsaid] at h
      obtain ⟨ms, u, hcourse, hon, hsession, hgreeting⟩ :=
        ih (t := { t with session, read := t.read ++ [x] }) hwaits h hrest
      exact ⟨_, u, .cons (.skip hwaits htime hreads hsaid) hcourse, .of_reads hreads hon, hsession,
        hgreeting⟩

/-- A session of a silent process reads all that there is, and nothing of it says anything. -/
theorem course_of_silence [Host] (hwaits : t.greeting = none)
    (htime : timeout.any Number.isNonpositive = false)
    (hsilent : Session.Silent t.session.child) :
    ∃ ms u, Course (Step timeout) t ms u ∧ ReadsOn t u ∧ u.session = t.session.withUnread [] ∧
      u.greeting = none := by
  obtain ⟨hexit, hstray⟩ := hsilent
  generalize hpieces : t.session.child.pieces = pieces at hstray
  induction pieces generalizing t with
  | nil =>
    obtain ⟨hunread, -⟩ := Child.pieces_eq_nil_iff.mp hpieces
    have hsame : t.session = t.session.withUnread [] := by
      rw [Session.withUnread, ← hunread]
    exact ⟨[], t, .start, readsOn_self t, hsame, hwaits⟩
  | cons x pieces ih =>
    obtain ⟨session, hreads, hrest⟩ := Session.reads_of_pieces hpieces
    obtain ⟨hx, hstray⟩ := List.forall_mem_cons.mp hstray
    obtain ⟨ms, u, hcourse, hon, hsession, hgreeting⟩ :=
      ih (t := { t with session, read := t.read ++ [x] }) hwaits
        (hreads.exit.trans hexit) hrest hstray
    refine ⟨_, u, .cons (.skip hwaits htime hreads hx) hcourse, .of_reads hreads hon, ?_, hgreeting⟩
    rw [hsession]
    cases hreads with
    | line hunread => rfl
    | part hunread hlong => cases hx

/-- A greeting as a session gets it is one way in which waiting ends. -/
theorem course_of_greeting [Host] {greeting : Greeting} {s : Session}
    (h : (Session.ofChild p).greeting? timeout = some (greeting, s)) :
    ∃ ms t, Course (Step timeout) (begin p) ms t ∧ ReadsOn (begin p) t ∧ t.session = s ∧
      t.greeting = some greeting := by
  unfold Session.greeting? at h
  by_cases htime : timeout.any Number.isNonpositive = true
  · have hlimit : timeout ≠ none := by
      rintro rfl
      cases htime
    simp only [htime, if_true, Option.some.injEq, Prod.mk.injEq] at h
    obtain ⟨rfl, rfl⟩ := h
    exact ⟨_, _, .single (.expire rfl hlimit), ⟨rfl, rfl⟩, rfl, rfl⟩
  · have htime : timeout.any Number.isNonpositive = false := by simpa using htime
    rw [htime] at h
    cases hhear : (Session.ofChild p).hear? with
    | some r =>
      obtain ⟨heard, s'⟩ := r
      obtain ⟨ms, u, hcourse, hreads, rfl, hgreeting⟩ :=
        course_of_hear (t := begin p) rfl htime hhear
      have hsame : u.session = s ∧ u.greeting = some greeting := by
        cases heard <;> simpa [hhear, hgreeting, greetingOf, and_comm] using h
      exact ⟨ms, u, hcourse, hreads, hsame⟩
    | none =>
      cases timeout with
      | none => simp [hhear] at h
      | some limit =>
        have hsilent := Session.hear?_eq_none_iff.mp hhear
        simp only [hhear, Bool.false_eq_true, if_false, Option.some.injEq, Prod.mk.injEq] at h
        obtain ⟨rfl, rfl⟩ := h
        obtain ⟨ms, u, hcourse, hon, hsession, hwaits⟩ :=
          course_of_silence (t := begin p) rfl htime hsilent
        exact ⟨_, _, hcourse.next (.expire hwaits (by simp)), ⟨hon.session, hon.pieces⟩, hsession,
          rfl⟩

theorem connect_eq_none_iff [Host] : Session.connect p timeout = none ↔
    timeout = none ∧ Session.Silent p := by
  by_cases htime : timeout.any Number.isNonpositive = true
  · have hsome : Session.connect p timeout ≠ none := by
      rw [connect_eq]
      unfold Session.greeting?
      rw [if_pos htime]
      simp
    constructor
    · intro h
      exact absurd h hsome
    · rintro ⟨rfl, -⟩
      cases htime
  · exact Session.connect_eq_none_iff (by simpa using htime)

/-- Whatever a process does and however long one waits, connecting to it ends with a session that
is ready, or with a process that has ended, or with output that cannot be read. Connecting to a
process that does nothing meanwhile is one such course, and it does not end exactly if there is no
limit and the process is silent. -/
theorem connect_settles [Host] (p : Child) (timeout : Option Number) :
    (∀ ms t greeting, Course (Step timeout) (begin p) ms t → t.greeting = some greeting →
      Settled p t (settle p timeout t.session greeting).1
        (settle p timeout t.session greeting).2.1) ∧
    (∀ outcome s noted, Session.connect p timeout = some (outcome, s, noted) →
      ∃ ms t greeting, Course (Step timeout) (begin p) ms t ∧ ReadsOn (begin p) t ∧
        t.greeting = some greeting ∧
        settle p timeout t.session greeting = (outcome, s, noted)) ∧
    (Session.connect p timeout = none ↔ timeout = none ∧ Session.Silent p) := by
  refine ⟨?_, ?_, connect_eq_none_iff⟩
  · intro ms t greeting hcourse hgreeting
    exact settled (attended_of_course hcourse) hgreeting timeout
  · intro outcome s noted h
    rw [connect_eq, Option.map_eq_some_iff] at h
    obtain ⟨⟨greeting, s'⟩, hgreeting, hsettle⟩ := h
    obtain ⟨ms, t, hcourse, hreads, rfl, hend⟩ := course_of_greeting hgreeting
    exact ⟨ms, t, greeting, hcourse, hreads, hend, hsettle⟩

/-- A line that is too long is a fault, and its process is left as it is. -/
theorem connect_of_padding [Host] {p : Child} {unread : List Text}
    (hunread : p.unread = Session.padding :: unread) {timeout : Option Number}
    (htime : timeout.any Number.isNonpositive = false) :
    Session.connect p timeout =
      some (.error (.value (.overlong true)), (Session.ofChild p).withUnread unread, []) := by
  have hreads : (Session.ofChild p).Reads (.line Session.padding) _ := .line hunread
  have hhear : (Session.ofChild p).hear? =
      some (.fault (.overlong true), (Session.ofChild p).withUnread unread) := by
    rw [Session.hear?_of_reads hreads, Piece.said?, Session.read?_padding]
    rfl
  rw [connect_eq]
  unfold Session.greeting?
  rw [htime, hhear]
  rfl

/-- A process that says behind a line of spaces that it is ready. The line is too long. -/
def paddedBehaviour : Behaviour :=
  { pid := 1
    output := Session.padding ++ '\n' :: "\x7b\"ready\": true\x7d\n"
    errors := []
    exit := none
    react := fun _ => .write [] [] none
    exitAtClose := some 0 }

theorem unread_paddedBehaviour :
    (Child.start paddedBehaviour).unread = [Session.padding, "\x7b\"ready\": true\x7d"] :=
  Child.unread_start (b := paddedBehaviour) rfl Session.feed_not_mem_padding rfl

section

open scoped Host.Usual

/-- A process that is about to say that it is ready is left running, with a fault that is none of
the bridge. Only the length of the line in front keeps it from being passed over. -/
theorem overlong_greeting_leaves : ∃ s,
    Session.connect (Child.start paddedBehaviour) none =
      some (.error (.value (.overlong true)), s, []) ∧
    s.child.exit = none ∧ s.child.unread = [("\x7b\"ready\": true\x7d" : Text)] ∧
    Session.said? Session.padding = none :=
  ⟨_, connect_of_padding unread_paddedBehaviour rfl, rfl, rfl, Session.said?_padding⟩

end

end Handshake

end FragmentLint
