import FragmentLint.Proofs.Acceptance
import FragmentLint.Proofs.Trace
import Mathlib.Data.List.Forall2

/-!
# Requests in lockstep

Callers may ask one session at the same time. A request waits until no other one is under way,
is written, and reads the output piece by piece until a piece says something. Meanwhile other
callers may come, and the process may write or end at any time. The course of such traffic is
followed here step by step. It turns out that the requests on the input and what is said on the
output go in pairs: what is written next is answered by what is said next, be it a message or
a fault.

The pieces that were read, and how requests ended, are kept for the record only. No step looks
at them.
-/
namespace FragmentLint

structure Call where
  caller : Nat
  payload : Json.Members

structure Sent where
  call : Call
  number : Nat

def Sent.line (r : Sent) : Text :=
  Session.requestLine r.call.payload r.number

/-- How a request ended: its number, if it was written, and what its caller got. -/
structure Ending where
  call : Call
  number : Option Nat
  answer : Except Fault Json.Members

/-- The request that ended, if it was written, with its answer. -/
def Ending.written? (e : Ending) : Option (Sent × Except Fault Json.Members) :=
  e.number.map fun n => (⟨e.call, n⟩, e.answer)

/-- A session with the requests that are made of it. -/
structure Traffic where
  session : Session
  /-- The requests that wait for their turn. -/
  queue : List Call := []
  /-- The request that was written and waits for its answer. -/
  waiting : Option Sent := none
  /-- The pieces of output that were read. -/
  read : List Piece := []
  /-- The requests that came to an end, in that order. -/
  endings : List Ending := []

namespace Traffic

def idle (s : Session) : Traffic :=
  { session := s }

/-- What happens next. -/
inductive Move where
  /-- A caller comes. -/
  | call (c : Call)
  /-- A request that waits has its turn. -/
  | serve
  /-- The request under way reads on. -/
  | hear
  /-- The process writes, and perhaps ends. -/
  | emit (output errors : Text) (exit : Option Int)

/-- How traffic goes on. Which of the requests that wait has its turn is left open. -/
inductive Step [Host] : Traffic → Move → Traffic → Prop where
  | call {t : Traffic} {c : Call} :
      Step t (.call c) { t with queue := t.queue ++ [c] }
  | gone {t : Traffic} {before after : List Call} {c : Call} {code : Int}
      (hfree : t.waiting = none) (hqueue : t.queue = before ++ c :: after)
      (hexit : t.session.child.exit = some code) :
      Step t .serve
        { t with
          queue := before ++ after
          endings := t.endings ++ [⟨c, none, .error (.bridge (.gone code))⟩] }
  | refused {t : Traffic} {before after : List Call} {c : Call} {reason : Text}
      (hfree : t.waiting = none) (hqueue : t.queue = before ++ c :: after)
      (hexit : t.session.child.exit = none)
      (hwrite : t.session.child.write (Session.requestLine c.payload (t.session.last + 1)) =
        .error reason) :
      Step t .serve
        { t with
          session := { t.session with last := t.session.last + 1 }
          queue := before ++ after
          endings := t.endings ++ [⟨c, none, .error (.bridge (.closedInput reason))⟩] }
  | send {t : Traffic} {before after : List Call} {c : Call} {child : Child}
      (hfree : t.waiting = none) (hqueue : t.queue = before ++ c :: after)
      (hexit : t.session.child.exit = none)
      (hwrite : t.session.child.write (Session.requestLine c.payload (t.session.last + 1)) =
        .ok child) :
      Step t .serve
        { t with
          session := { t.session with child, last := t.session.last + 1 }
          queue := before ++ after
          waiting := some ⟨c, t.session.last + 1⟩ }
  | skip {t : Traffic} {r : Sent} {x : Piece} {session : Session}
      (hwaiting : t.waiting = some r) (hreads : t.session.Reads x session)
      (hsaid : x.said? = none) :
      Step t .hear { t with session, read := t.read ++ [x] }
  | reply {t : Traffic} {r : Sent} {x : Piece} {session : Session}
      {said : Except ValueFault Json.Members}
      (hwaiting : t.waiting = some r) (hreads : t.session.Reads x session)
      (hsaid : x.said? = some said) :
      Step t .hear
        { t with
          session
          read := t.read ++ [x]
          waiting := none
          endings := t.endings ++
            [⟨r.call, some r.number, Session.answerTo r.number (Session.heard said)⟩] }
  | ended {t : Traffic} {r : Sent} {code : Int} (hwaiting : t.waiting = some r)
      (hpieces : t.session.child.pieces = []) (hexit : t.session.child.exit = some code) :
      Step t .hear
        { t with
          waiting := none
          endings := t.endings ++ [⟨r.call, some r.number,
            Session.answerTo r.number (.ended code (Session.detail t.session.errors))⟩] }
  | emit {t : Traffic} {output errors : Text} {exit : Option Int} :
      Step t (.emit output errors exit)
        { t with
          session := { t.session with child := t.session.child.emit output errors exit } }

/-- The requests that were written and have ended, in order, with their answers. -/
def answered (t : Traffic) : List (Sent × Except Fault Json.Members) :=
  t.endings.filterMap Ending.written?

/-- The requests that were written: those that have ended, and the one under way. -/
def sent (t : Traffic) : List Sent :=
  t.answered.map Prod.fst ++ t.waiting.toList

/-- What the pieces said that were read. -/
def sayings [Host] (t : Traffic) : List (Except ValueFault Json.Members) :=
  t.read.filterMap Piece.said?

/-- What a request got is what was heard for it. -/
def Answers (a : Sent × Except Fault Json.Members) (h : Session.Heard) : Prop :=
  a.2 = Session.answerTo a.1.number h

/-- Requests that were written since a session was idle: they are on the input, in order, and
their numbers ascend. -/
structure Numbered (s now : Session) (sent : List Sent) : Prop where
  written : now.child.written = s.child.written ++ sent.map Sent.line
  ascending : (sent.map Sent.number).Pairwise (· < ·)
  above : ∀ r ∈ sent, s.last < r.number
  below : ∀ r ∈ sent, r.number ≤ now.last
  last : s.last ≤ now.last

/-- What holds throughout the traffic that begins with a session. -/
structure Paired [Host] (s : Session) (t : Traffic) : Prop where
  numbered : Numbered s t.session t.sent
  answers : ∃ ends, List.Forall₂ Answers t.answered (t.sayings.map Session.heard ++ ends) ∧
    (∀ h ∈ ends, ∃ code detail, h = .ended code detail) ∧
    (ends ≠ [] → t.waiting = none ∧ t.session.child.pieces = [] ∧
      ∃ code, t.session.child.exit = some code)
  unwritten : ∀ e ∈ t.endings, e.number = none → ∃ fault, e.answer = .error (.bridge fault)

theorem paired_idle [Host] (s : Session) : Paired s (idle s) where
  numbered :=
    { written := (List.append_nil _).symm
      ascending := .nil
      above := by simp [idle, sent, answered]
      below := by simp [idle, sent, answered]
      last := Nat.le_refl _ }
  answers := ⟨[], .nil, by simp, by simp⟩
  unwritten := by simp [idle]

theorem Numbered.mono {s now later : Session} {sent : List Sent} (h : Numbered s now sent)
    (hwritten : later.child.written = now.child.written) (hlast : now.last ≤ later.last) :
    Numbered s later sent where
  written := hwritten.trans h.written
  ascending := h.ascending
  above := h.above
  below := fun r hr => Nat.le_trans (h.below r hr) hlast
  last := Nat.le_trans h.last hlast

theorem Numbered.snoc {s now later : Session} {sent : List Sent} (h : Numbered s now sent)
    {r : Sent} (hwritten : later.child.written = now.child.written ++ [r.line])
    (hnumber : r.number = now.last + 1) (hlast : later.last = now.last + 1) :
    Numbered s later (sent ++ [r]) := by
  have hstart := h.last
  constructor
  case written => rw [hwritten, h.written, List.map_append, List.append_assoc]; rfl
  case ascending =>
    rw [List.map_append, List.pairwise_append]
    refine ⟨h.ascending, List.pairwise_singleton _ _, ?_⟩
    intro n hn m hm
    obtain ⟨r', hr', rfl⟩ := List.mem_map.mp hn
    obtain rfl : m = r.number := by simpa using hm
    have := h.below r' hr'
    omega
  case above =>
    intro r' hr'
    obtain hmem | hnew := List.mem_append.mp hr'
    · exact h.above r' hmem
    · obtain rfl := List.mem_singleton.mp hnew
      omega
  case below =>
    intro r' hr'
    obtain hmem | hnew := List.mem_append.mp hr'
    · have := h.below r' hmem
      omega
    · obtain rfl := List.mem_singleton.mp hnew
      omega
  case last => omega

theorem filterMap_written?_snoc (endings : List Ending) (e : Ending) :
    (endings ++ [e]).filterMap Ending.written? =
      endings.filterMap Ending.written? ++ e.written?.toList := by
  rw [List.filterMap_append]
  cases h : e.written? <;> simp [h]

section Step

variable {s : Session} {t : Traffic}

/-- Nothing was heard to end while a request is under way, or the process is. -/
theorem Paired.answers_open [Host] (h : Paired s t)
    (hopen : t.waiting ≠ none ∨ t.session.child.exit = none) :
    List.Forall₂ Answers t.answered (t.sayings.map Session.heard) := by
  obtain ⟨ends, hanswers, -, hstop⟩ := h.answers
  have hends : ends = [] := by
    by_contra hne
    obtain ⟨hnone, -, code, hcode⟩ := hstop hne
    obtain hwaiting | hexit := hopen
    · exact hwaiting hnone
    · simp [hexit] at hcode
  rwa [hends, List.append_nil] at hanswers

/-- A request that ends without having been written changes nothing for the others. -/
theorem Paired.turn_away [Host] (h : Paired s t) (queue : List Call) {last : Nat}
    (hlast : t.session.last ≤ last) (c : Call) (fault : BridgeFault) :
    Paired s { t with
      session := { t.session with last }
      queue
      endings := t.endings ++ [⟨c, none, .error (.bridge fault)⟩] } := by
  have hanswered : (t.endings ++ [(⟨c, none, .error (.bridge fault)⟩ : Ending)]).filterMap
      Ending.written? = t.answered := by
    rw [filterMap_written?_snoc]
    exact List.append_nil _
  constructor
  case numbered =>
    rw [sent, answered, hanswered]
    exact h.numbered.mono rfl hlast
  case answers =>
    rw [answered, hanswered]
    exact h.answers
  case unwritten =>
    intro e he hnone
    obtain hmem | hnew := List.mem_append.mp he
    · exact h.unwritten e hmem hnone
    · obtain rfl := List.mem_singleton.mp hnew
      exact ⟨fault, rfl⟩

/-- A request is written when none is under way, and takes the next number. -/
theorem Paired.send [Host] (h : Paired s t) (queue : List Call) {c : Call} {child : Child}
    (hfree : t.waiting = none) (hexit : t.session.child.exit = none)
    (hwrite : t.session.child.write (Session.requestLine c.payload (t.session.last + 1)) =
      .ok child) :
    Paired s { t with
      session := { t.session with child, last := t.session.last + 1 }
      queue
      waiting := some ⟨c, t.session.last + 1⟩ } := by
  obtain ⟨hwritten, -⟩ := Child.write_spec hwrite
  have hsent : t.sent = t.answered.map Prod.fst := by
    rw [sent, hfree]
    exact List.append_nil _
  constructor
  case numbered =>
    have hnumbered := h.numbered
    rw [hsent] at hnumbered
    exact hnumbered.snoc hwritten rfl rfl
  case answers =>
    refine ⟨[], ?_, by simp, by simp⟩
    rw [List.append_nil]
    exact h.answers_open (.inr hexit)
  case unwritten => exact h.unwritten

/-- The request under way ends with what was heard, and the record of what was read has grown
by what that says. -/
theorem Paired.conclude [Host] (h : Paired s t) {r : Sent} (hwaiting : t.waiting = some r)
    {session : Session} (hwritten : session.child.written = t.session.child.written)
    (hlast : session.last = t.session.last) (read : List Piece) (last : Session.Heard)
    (ends : List Session.Heard)
    (hheard : (read.filterMap Piece.said?).map Session.heard ++ ends =
      t.sayings.map Session.heard ++ [last])
    (hended : ∀ h ∈ ends, ∃ code detail, h = .ended code detail)
    (hstop : ends ≠ [] → session.child.pieces = [] ∧ ∃ code, session.child.exit = some code) :
    Paired s { t with
      session
      read
      waiting := none
      endings := t.endings ++ [⟨r.call, some r.number, Session.answerTo r.number last⟩] } := by
  have hanswered : (t.endings ++
      [(⟨r.call, some r.number, Session.answerTo r.number last⟩ : Ending)]).filterMap
      Ending.written? = t.answered ++ [(r, Session.answerTo r.number last)] :=
    filterMap_written?_snoc _ _
  have hsent : t.sent = (t.answered ++ [(r, Session.answerTo r.number last)]).map Prod.fst := by
    rw [sent, hwaiting, List.map_append]
    rfl
  constructor
  case numbered =>
    rw [sent, answered, hanswered, ← hsent, Option.toList_none, List.append_nil]
    exact h.numbered.mono hwritten (Nat.le_of_eq hlast.symm)
  case answers =>
    refine ⟨ends, ?_, hended, fun hne => ⟨rfl, hstop hne⟩⟩
    rw [answered, hanswered, sayings, hheard]
    exact List.rel_append (h.answers_open (.inl (by simp [hwaiting]))) (.cons rfl .nil)
  case unwritten =>
    intro e he hnone
    obtain hmem | hnew := List.mem_append.mp he
    · exact h.unwritten e hmem hnone
    · obtain rfl := List.mem_singleton.mp hnew
      simp at hnone

/-- A piece that says nothing is passed over. -/
theorem Paired.skip [Host] (h : Paired s t) {r : Sent} {x : Piece} {session : Session}
    (hwaiting : t.waiting = some r) (hreads : t.session.Reads x session)
    (hsaid : x.said? = none) :
    Paired s { t with session, read := t.read ++ [x] } := by
  have hsayings : (t.read ++ [x]).filterMap Piece.said? = t.read.filterMap Piece.said? := by
    simp [hsaid]
  constructor
  case numbered => exact h.numbered.mono hreads.written (Nat.le_of_eq hreads.last.symm)
  case answers =>
    refine ⟨[], ?_, by simp, by simp⟩
    rw [sayings, hsayings, List.append_nil]
    exact h.answers_open (.inl (by simp [hwaiting]))
  case unwritten => exact h.unwritten

/-- What the process writes is put behind what has not been read, and a process that has ended
writes no more. -/
theorem Paired.emit [Host] (h : Paired s t) (output errors : Text) (exit : Option Int) :
    Paired s { t with
      session := { t.session with child := t.session.child.emit output errors exit } } := by
  constructor
  case numbered => exact h.numbered.mono (Child.emit_written _ _ _ _) (Nat.le_refl _)
  case answers =>
    obtain ⟨ends, hanswers, hended, hstop⟩ := h.answers
    refine ⟨ends, hanswers, hended, fun hne => ?_⟩
    obtain ⟨hnone, hpieces, code, hcode⟩ := hstop hne
    have hsame := Child.emit_of_exit hcode output errors exit
    exact ⟨hnone, by rw [hsame]; exact hpieces, code, by rw [hsame]; exact hcode⟩
  case unwritten => exact h.unwritten

theorem Paired.step [Host] (h : Paired s t) {m : Move} {u : Traffic} (hstep : Step t m u) :
    Paired s u := by
  cases hstep with
  | call => exact ⟨h.numbered, h.answers, h.unwritten⟩
  | gone hfree hqueue hexit => exact h.turn_away _ (Nat.le_refl _) _ _
  | refused hfree hqueue hexit hwrite => exact h.turn_away _ (Nat.le_succ _) _ _
  | send hfree hqueue hexit hwrite => exact h.send _ hfree hexit hwrite
  | skip hwaiting hreads hsaid => exact h.skip hwaiting hreads hsaid
  | @reply _ x _ said hwaiting hreads hsaid =>
    have hheard : ((t.read ++ [x]).filterMap Piece.said?).map Session.heard ++ [] =
        t.sayings.map Session.heard ++ [Session.heard said] := by
      simp [sayings, hsaid]
    exact h.conclude hwaiting hreads.written hreads.last _ _ [] hheard (by simp) (by simp)
  | @ended r code hwaiting hpieces hexit =>
    exact h.conclude hwaiting rfl rfl t.read _ [.ended code (Session.detail t.session.errors)] rfl
      (by simp) (fun _ => ⟨hpieces, code, hexit⟩)
  | emit => exact h.emit _ _ _

end Step

theorem paired_of_course [Host] {s : Session} {t : Traffic} {ms : List Move}
    (h : Course Step (idle s) ms t) : Paired s t :=
  h.preserves (fun _ _ _ hpaired hstep => hpaired.step hstep) (paired_idle s)

/-- A piece that is read is the first of the output. -/
theorem reads_prefix {s u : Session} {x : Piece} (h : s.Reads x u) (read : List Piece) :
    read ++ s.child.unread.map .line <+: read ++ [x] ++ u.child.unread.map .line := by
  cases h with
  | line hunread =>
    rw [hunread, List.map_cons, List.append_cons]
    exact List.prefix_refl _
  | part hunread =>
    rw [hunread]
    simp [Session.overrun]

/-- The output so far: the pieces that were read, and the lines that were not. -/
def output (t : Traffic) : List Piece :=
  t.read ++ t.session.child.unread.map .line

theorem Step.output_prefix [Host] {t u : Traffic} {m : Move} (h : Step t m u) :
    t.output <+: u.output := by
  cases h with
  | call => exact List.prefix_refl _
  | gone => exact List.prefix_refl _
  | refused => exact List.prefix_refl _
  | send hfree hqueue hexit hwrite =>
    obtain ⟨-, more, hunread⟩ := Child.write_spec hwrite
    rw [output, output, hunread, List.map_append, ← List.append_assoc]
    exact List.prefix_append _ _
  | skip _ hreads => exact reads_prefix hreads t.read
  | reply _ hreads => exact reads_prefix hreads t.read
  | ended => exact List.prefix_refl _
  | @emit output errors exit =>
    obtain ⟨more, hunread⟩ := Child.emit_unread t.session.child output errors exit
    rw [Traffic.output, Traffic.output, hunread, List.map_append, ← List.append_assoc]
    exact List.prefix_append _ _

/-- Output is neither lost nor changed, whether it was read or not. -/
theorem output_prefix [Host] {t u : Traffic} {ms : List Move} (h : Course Step t ms u) :
    t.output <+: u.output := by
  induction h with
  | start => exact List.prefix_refl _
  | next _ hstep ih => exact ih.trans hstep.output_prefix

/-- How a request ends after the process has: the one that was under way at some time ends in one
way or another, and every other one fails without having been written. -/
def Late (t : Traffic) (code : Int) (e : Ending) : Prop :=
  (e.number = none ∧ e.answer = .error (.bridge (.gone code))) ∨
    ∃ r, t.waiting = some r ∧ e.call = r.call ∧ e.number = some r.number

/-- What is still to come once the process has ended: nothing is written, and requests end
late. -/
structure Stopped (t : Traffic) (code : Int) (u : Traffic) : Prop where
  exit : u.session.child.exit = some code
  written : u.session.child.written = t.session.child.written
  waiting : ∀ r, u.waiting = some r → t.waiting = some r
  endings : ∃ more, u.endings = t.endings ++ more ∧ ∀ e ∈ more, Late t code e

theorem endings_snoc {t : Traffic} {code : Int} {endings : List Ending}
    (h : ∃ more, endings = t.endings ++ more ∧ ∀ e ∈ more, Late t code e) {e : Ending}
    (he : Late t code e) :
    ∃ more, endings ++ [e] = t.endings ++ more ∧ ∀ e ∈ more, Late t code e := by
  obtain ⟨more, rfl, hall⟩ := h
  refine ⟨more ++ [e], List.append_assoc _ _ _, fun e' he' => ?_⟩
  obtain hmem | hnew := List.mem_append.mp he'
  · exact hall e' hmem
  · rw [List.mem_singleton.mp hnew]
    exact he

theorem Stopped.step [Host] {t u v : Traffic} {code : Int} {m : Move} (h : Stopped t code u)
    (hstep : Step u m v) : Stopped t code v := by
  obtain ⟨hexit, hwritten, hwaits, hendings⟩ := h
  cases hstep with
  | call => exact ⟨hexit, hwritten, hwaits, hendings⟩
  | @gone _ _ _ code' hfree hqueue hexit' =>
    obtain rfl : code = code' := Option.some.inj (hexit.symm.trans hexit')
    exact ⟨hexit, hwritten, hwaits, endings_snoc hendings (.inl ⟨rfl, rfl⟩)⟩
  | refused hfree hqueue hexit' => simp [hexit] at hexit'
  | send hfree hqueue hexit' => simp [hexit] at hexit'
  | skip _ hreads =>
    exact ⟨hreads.exit.trans hexit, hreads.written.trans hwritten, hwaits, hendings⟩
  | @reply r _ _ _ hwaiting hreads =>
    have hlate := hwaits r hwaiting
    exact ⟨hreads.exit.trans hexit, hreads.written.trans hwritten, by simp,
      endings_snoc hendings (.inr ⟨r, hlate, rfl, rfl⟩)⟩
  | @ended r _ hwaiting =>
    have hlate := hwaits r hwaiting
    exact ⟨hexit, hwritten, by simp, endings_snoc hendings (.inr ⟨r, hlate, rfl, rfl⟩)⟩
  | @emit output errors exit =>
    have hsame := Child.emit_of_exit hexit output errors exit
    exact ⟨by rw [hsame]; exact hexit, by rw [hsame]; exact hwritten, hwaits, hendings⟩

theorem stopped_of_course [Host] {t u : Traffic} {ms : List Move} (h : Course Step t ms u)
    {code : Int} (hexit : t.session.child.exit = some code) : Stopped t code u :=
  h.preserves (fun _ _ _ hstopped hstep => hstopped.step hstep)
    ⟨hexit, rfl, fun _ hr => hr, [], (List.append_nil _).symm, by simp⟩

/-- A request under way hears what the session hears. -/
theorem course_of_hear [Host] {t : Traffic} {r : Sent} {last : Session.Heard} {s : Session}
    (hwaiting : t.waiting = some r) (h : t.session.hear? = some (last, s)) :
    ∃ ms u, Course Step t ms u ∧ u.session = s ∧ u.queue = t.queue ∧ u.waiting = none ∧
      u.endings = t.endings ++ [⟨r.call, some r.number, Session.answerTo r.number last⟩] := by
  generalize hpieces : t.session.child.pieces = pieces
  induction pieces generalizing t with
  | nil =>
    rw [Session.hear?_of_pieces hpieces] at h
    obtain ⟨code, hexit, h⟩ := Option.map_eq_some_iff.mp h
    obtain ⟨rfl, rfl⟩ := Prod.mk.inj h
    exact ⟨_, _, .single (.ended hwaiting hpieces hexit), rfl, rfl, rfl, rfl⟩
  | cons x pieces ih =>
    obtain ⟨session, hreads, hrest⟩ := Session.reads_of_pieces hpieces
    rw [Session.hear?_of_reads hreads] at h
    cases hsaid : x.said? with
    | some said =>
      simp only [hsaid, Option.some.injEq, Prod.mk.injEq] at h
      obtain ⟨rfl, rfl⟩ := h
      exact ⟨_, _, .single (.reply hwaiting hreads hsaid), rfl, rfl, rfl, rfl⟩
    | none =>
      rw [hsaid] at h
      have hskip := Step.skip hwaiting hreads hsaid
      obtain ⟨ms, u, hcourse, hsession, hqueue, hfree, hendings⟩ :=
        ih (t := { t with session, read := t.read ++ [x] }) hwaiting h hrest
      exact ⟨_, u, .cons hskip hcourse, hsession, hqueue, hfree, hendings⟩

/-- A request that is served at once is one way in which traffic goes on. -/
theorem course_of_request [Host] {t : Traffic} {before after : List Call} {c : Call} {s : Session}
    {answer : Except Fault Json.Members} (hfree : t.waiting = none)
    (hqueue : t.queue = before ++ c :: after)
    (h : t.session.request c.payload = some (answer, s)) :
    ∃ ms u, Course Step t ms u ∧ u.session = s ∧ u.queue = before ++ after ∧
      u.waiting = none ∧ ∃ number, u.endings = t.endings ++ [⟨c, number, answer⟩] := by
  unfold Session.request at h
  cases hexit : t.session.child.exit with
  | some code =>
    simp only [hexit, Option.some.injEq, Prod.mk.injEq] at h
    obtain ⟨rfl, rfl⟩ := h
    exact ⟨_, _, .single (.gone hfree hqueue hexit), rfl, rfl, hfree, none, rfl⟩
  | none =>
    cases hwrite : t.session.child.write
        (Session.requestLine c.payload (t.session.last + 1)) with
    | error reason =>
      simp only [hexit, hwrite, Option.some.injEq, Prod.mk.injEq] at h
      obtain ⟨rfl, rfl⟩ := h
      exact ⟨_, _, .single (.refused hfree hqueue hexit hwrite), rfl, rfl, hfree, none, rfl⟩
    | ok child =>
      simp only [hexit, hwrite, Option.map_eq_some_iff, Prod.mk.injEq] at h
      obtain ⟨⟨last, s'⟩, hhear, rfl, rfl⟩ := h
      have hsend := Step.send hfree hqueue hexit hwrite
      obtain ⟨ms, u, hcourse, hsession, hqueue', hfree', hendings⟩ :=
        course_of_hear (t := { t with
          session := { t.session with child, last := t.session.last + 1 }
          queue := before ++ after
          waiting := some ⟨c, t.session.last + 1⟩ }) rfl hhear
      exact ⟨_, u, .cons hsend hcourse, hsession, hqueue', hfree', _, hendings⟩

theorem course_of_requests [Host] {t : Traffic} {s : Session}
    {answers : List (Except Fault Json.Members)} (hfree : t.waiting = none)
    (h : t.session.requests (t.queue.map Call.payload) = some (answers, s)) :
    ∃ ms u, Course Step t ms u ∧ u.session = s ∧
      u.endings.map Ending.call = t.endings.map Ending.call ++ t.queue ∧
      u.endings.map Ending.answer = t.endings.map Ending.answer ++ answers := by
  generalize hcalls : t.queue = calls at h ⊢
  induction calls generalizing t answers with
  | nil =>
    simp only [List.map_nil, Session.requests, Option.some.injEq, Prod.mk.injEq] at h
    obtain ⟨rfl, rfl⟩ := h
    exact ⟨[], t, .start, rfl, by simp, by simp⟩
  | cons c calls ih =>
    simp only [List.map_cons, Session.requests, Option.bind_eq_bind, Option.bind_eq_some_iff,
      Option.pure_def, Option.some.injEq, Prod.mk.injEq] at h
    obtain ⟨⟨answer, s'⟩, hfirst, ⟨others, s''⟩, hothers, rfl, rfl⟩ := h
    have hfront : t.queue = [] ++ c :: calls := hcalls
    obtain ⟨ms, u, hcourse, rfl, hqueue, hfree', number, hendings⟩ :=
      course_of_request hfree hfront hfirst
    obtain ⟨ms', v, hcourse', hsession, hcall, hanswer⟩ := ih hfree' hqueue hothers
    refine ⟨ms ++ ms', v, hcourse.append hcourse', hsession, ?_, ?_⟩
    · rw [hcall, hendings]
      simp
    · rw [hanswer, hendings]
      simp

theorem course_of_calls [Host] (t : Traffic) (calls : List Call) :
    Course Step t (calls.map .call) { t with queue := t.queue ++ calls } := by
  induction calls generalizing t with
  | nil => simpa using Course.start
  | cons c calls ih => simpa using Course.cons Step.call (ih { t with queue := t.queue ++ [c] })

/-- An object carries the number of a request. -/
def HasNumber (object : Json.Members) (number : Nat) : Prop :=
  ∃ id, object.get? "id" = some id ∧ id.equalsInt number = true

/-- A request used up what was said next. It got an object that carries its number, and a fault of
the bridge for any other object and for the end of the output. A piece that cannot be read left
it with the fault of that. -/
def Uses (a : Sent × Except Fault Json.Members) :
    Option (Except ValueFault Json.Members) → Prop
  | some (.ok object) =>
    (HasNumber object a.1.number ∧ a.2 = .ok object) ∨
      (¬ HasNumber object a.1.number ∧ ∃ fault, a.2 = .error (.bridge fault))
  | some (.error fault) => a.2 = .error (.value fault)
  | none => ∃ code detail, a.2 = .error (.bridge (.ended code detail))

theorem uses_of_answers {a : Sent × Except Fault Json.Members}
    {said : Except ValueFault Json.Members} (h : Answers a (Session.heard said)) :
    Uses a (some said) := by
  cases said with
  | error fault => exact h
  | ok object =>
    have hanswer : a.2 = Session.replyTo a.1.number object := h
    by_cases hnumber : HasNumber object a.1.number
    · exact .inl ⟨hnumber, by rw [hanswer]; exact Session.replyTo_eq_ok_iff.mpr ⟨rfl, hnumber⟩⟩
    · refine .inr ⟨hnumber, ?_⟩
      rw [hanswer]
      cases hreply : Session.replyTo a.1.number object with
      | ok object' =>
        obtain ⟨-, hid⟩ := Session.replyTo_eq_ok_iff.mp hreply
        exact absurd hid hnumber
      | error fault =>
        obtain ⟨f, rfl⟩ := Session.bridge_of_replyTo hreply
        exact ⟨f, rfl⟩

/-- What holds at every moment of the traffic that begins with a session, in terms of what
crosses the pipes. -/
structure Lockstep [Host] (s : Session) (t : Traffic) : Prop where
  /-- The lines on the input are those of the requests that have ended, in order, and of the one
  under way. -/
  written : t.session.child.written = s.child.written ++ t.sent.map Sent.line
  /-- Their numbers ascend. -/
  ascending : (t.sent.map Sent.number).Pairwise (· < ·)
  /-- No request is written while another one waits for its answer. -/
  alone : ∀ m u, Step t m u → u.session.child.written ≠ t.session.child.written →
    t.waiting = none
  /-- Each request that was written and has ended used up what was said next on the output, or the
  end of the output behind that. -/
  uses : ∃ ends : List (Option (Except ValueFault Json.Members)),
    List.Forall₂ Uses t.answered (t.sayings.map some ++ ends) ∧ (∀ e ∈ ends, e = none) ∧
      (ends ≠ [] → t.session.child.pieces = [] ∧ ∃ code, t.session.child.exit = some code)
  /-- No two requests got the same object. -/
  once : t.answered.Pairwise fun a b => ∀ object, a.2 = .ok object → b.2 ≠ .ok object
  /-- A request that was not written got a fault of the bridge. -/
  unwritten : ∀ e ∈ t.endings, e.number = none → ∃ fault, e.answer = .error (.bridge fault)
  /-- What was read is the beginning of the output, to which lines are added at the end only. -/
  stream : ∀ ms u, Course Step t ms u → t.output <+: u.output
  /-- Once the process has ended, every request that was not written before fails, and nothing
  is written. -/
  stopped : ∀ code, t.session.child.exit = some code → ∀ ms u, Course Step t ms u →
    Stopped t code u

theorem waiting_of_written [Host] {t u : Traffic} {m : Move} (h : Step t m u)
    (hne : u.session.child.written ≠ t.session.child.written) : t.waiting = none := by
  cases h with
  | call => exact absurd rfl hne
  | gone hfree => exact hfree
  | refused hfree => exact hfree
  | send hfree => exact hfree
  | skip _ hreads => exact absurd hreads.written hne
  | reply _ hreads => exact absurd hreads.written hne
  | ended => exact absurd rfl hne
  | emit => exact absurd (Child.emit_written _ _ _ _) hne

theorem uses_of_forall₂ {answered : List (Sent × Except Fault Json.Members)}
    {sayings : List (Except ValueFault Json.Members)} {ends : List Session.Heard}
    (h : List.Forall₂ Answers answered (sayings.map Session.heard ++ ends))
    (hended : ∀ h ∈ ends, ∃ code detail, h = .ended code detail) :
    List.Forall₂ Uses answered (sayings.map some ++ ends.map fun _ => none) := by
  induction sayings generalizing answered with
  | nil =>
    simp only [List.map_nil, List.nil_append] at h ⊢
    induction h with
    | nil => exact .nil
    | cons hanswer _ ih =>
      obtain ⟨⟨code, detail, rfl⟩, hrest⟩ := List.forall_mem_cons.mp hended
      exact .cons ⟨code, detail, hanswer⟩ (ih hrest)
  | cons said sayings ih =>
    obtain ⟨a, answered', ha, hrest, rfl⟩ := List.forall₂_cons_right_iff.mp h
    exact .cons (uses_of_answers ha) (ih hrest)

/-- A request that got an object got one with its own number. -/
theorem hasNumber_of_uses {answered : List (Sent × Except Fault Json.Members)}
    {used : List (Option (Except ValueFault Json.Members))} (h : List.Forall₂ Uses answered used)
    {a : Sent × Except Fault Json.Members} (ha : a ∈ answered) {object : Json.Members}
    (hok : a.2 = .ok object) : HasNumber object a.1.number := by
  induction h with
  | nil => simp at ha
  | @cons b u answered used huses _ ih =>
    obtain rfl | hmem := List.mem_cons.mp ha
    · cases u with
      | none =>
        obtain ⟨code, detail, hended⟩ := huses
        simp [hok] at hended
      | some said =>
        cases said with
        | error fault =>
          have hfault : _ = Except.error (Fault.value fault) := huses
          simp [hok] at hfault
        | ok found =>
          obtain ⟨hnumber, hfound⟩ | ⟨-, fault, hfault⟩ := huses
          · obtain rfl : object = found := by simpa [hok] using hfound
            exact hnumber
          · simp [hok] at hfault
    · exact ih hmem

theorem hasNumber_unique {object : Json.Members} {m n : Nat} (hm : HasNumber object m)
    (hn : HasNumber object n) : m = n := by
  obtain ⟨id, hid, hequal⟩ := hm
  obtain ⟨id', hid', hequal'⟩ := hn
  obtain rfl : id = id' := Option.some.inj (hid.symm.trans hid')
  have := Json.equalsInt_unique hequal hequal'
  omega

theorem Paired.lockstep [Host] {s : Session} {t : Traffic} (h : Paired s t) : Lockstep s t := by
  obtain ⟨ends, hanswers, hended, hstop⟩ := h.answers
  have huses := uses_of_forall₂ hanswers hended
  constructor
  case written => exact h.numbered.written
  case ascending => exact h.numbered.ascending
  case alone =>
    intro m u hstep hne
    exact waiting_of_written hstep hne
  case uses =>
    refine ⟨_, huses, by simp, fun hne => ?_⟩
    exact (hstop fun hnil => hne (by rw [hnil]; rfl)).2
  case once =>
    have hasc : (t.answered.map fun a => a.1.number).Pairwise (· < ·) := by
      have := h.numbered.ascending
      rw [sent, List.map_append, List.map_map, List.pairwise_append] at this
      exact this.1
    rw [List.pairwise_map] at hasc
    refine hasc.imp_of_mem fun {a b} ha hb hlt object hok hok' => ?_
    have heq := hasNumber_unique (hasNumber_of_uses huses ha hok) (hasNumber_of_uses huses hb hok')
    omega
  case unwritten => exact h.unwritten
  case stream =>
    intro ms u hcourse
    exact output_prefix hcourse
  case stopped =>
    intro code hexit ms u hcourse
    exact stopped_of_course hcourse hexit

/-- However many callers there are, whenever they come and whatever the process writes, the
requests of a session go in lockstep with what its output says. Requests that are served one after
another are one such course. -/
theorem requests_in_lockstep [Host] (s : Session) :
    (∀ ms t, Course Step (idle s) ms t → Lockstep s t) ∧
    ∀ calls answers s', s.requests (calls.map Call.payload) = some (answers, s') →
      ∃ ms t, Course Step (idle s) ms t ∧ t.session = s' ∧
        t.endings.map Ending.call = calls ∧ t.endings.map Ending.answer = answers := by
  constructor
  · intro ms t hcourse
    exact (paired_of_course hcourse).lockstep
  · intro calls answers s' h
    have hcalls := course_of_calls (idle s) calls
    obtain ⟨ms, t, hcourse, hsession, hcall, hanswer⟩ :=
      course_of_requests (t := { idle s with queue := (idle s).queue ++ calls }) rfl h
    exact ⟨_, t, hcalls.append hcourse, hsession, hcall, hanswer⟩

/-- A process that answers a request behind a line of spaces that is too long. -/
def paddedBehaviour : Behaviour :=
  { pid := 1
    output := []
    errors := []
    exit := none
    react := fun _ =>
      .write (Session.padding ++ '\n' :: "\x7b\"id\": 1, \"ok\": true\x7d\n") [] none
    exitAtClose := some 0 }

def paddedSession : Session :=
  { child := { behaviour := paddedBehaviour } }

section

open scoped Host.Usual

/-- A request is answered by an object that carries its number, and gets a fault of reading
instead. Only the length of the line in front of the object keeps it from being passed over. -/
theorem overlong_line_answers : ∃ ms t, Course Step (idle paddedSession) ms t ∧
    t.endings.map Ending.answer = [.error (.value (.overlong true))] ∧
    t.session.child.unread = [("\x7b\"id\": 1, \"ok\": true\x7d" : Text)] ∧
    Session.said? Session.padding = none := by
  let c : Call := ⟨0, []⟩
  have hwrite : ∃ child, paddedSession.child.write (Session.requestLine [] 1) = .ok child ∧
      child.unread = [Session.padding, "\x7b\"id\": 1, \"ok\": true\x7d"] :=
    ⟨_, rfl, Session.unread_emit_line _ _ rfl rfl rfl Session.feed_not_mem_padding⟩
  obtain ⟨child, hwrite, hunread⟩ := hwrite
  have hcalled := Course.single (@Step.call _ (idle paddedSession) c)
  have hqueue : [c] = [] ++ c :: [] := rfl
  have hsent := hcalled.next (.send rfl hqueue rfl hwrite)
  have hanswered := hsent.next (.reply rfl (.line hunread) Session.read?_padding)
  exact ⟨_, _, hanswered, rfl, rfl, Session.said?_padding⟩

end

end Traffic

end FragmentLint
