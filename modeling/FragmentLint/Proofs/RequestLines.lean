import FragmentLint.Proofs.Handshake
import FragmentLint.Proofs.StrayOutput

/-!
# What reaches the input of a session

The requests that are made of a session are numbered one after another, and each of them makes one
line. A line reaches the process only as long as the process has not ended, and only if the
process takes it. So what has been written is always some of these lines in their order. If the
process takes whatever it is given, it is the first few of them, up to the one that it ends on. If
it takes nothing, there are none, and if it never ends either, it is all of them.
-/
namespace FragmentLint

namespace Behaviour

/-- A process that has read some lines takes several others, one after another. -/
def TakesEach (b : Behaviour) : List Text → List Text → Prop
  | _, [] => True
  | before, line :: lines =>
    (∃ output errors exit, b.react (before ++ [line]) = .write output errors exit) ∧
      b.TakesEach (before ++ [line]) lines

/-- A process that has read some lines takes none of several others. -/
def RefusesEach (b : Behaviour) (before lines : List Text) : Prop :=
  ∀ line ∈ lines, ∃ reason, b.react (before ++ [line]) = .refuse reason

/-- A process that has read some lines takes several others, one after another, and does not end
on any of them. -/
def OutlivesEach (b : Behaviour) : List Text → List Text → Prop
  | _, [] => True
  | before, line :: lines =>
    (∃ output errors, b.react (before ++ [line]) = .write output errors none) ∧
      b.OutlivesEach (before ++ [line]) lines

end Behaviour

namespace Session

/-- Hearing uses up output, and changes nothing else of a session. -/
theorem same_of_hear? [Host] {s t : Session} {heard : Heard} (h : s.hear? = some (heard, t)) :
    ∃ unread unfinished, t = { s with child := { s.child with unread, unfinished } } := by
  unfold hear? at h
  split at h
  · exact ⟨_, _, (Prod.mk.inj (Option.some.inj h)).2.symm⟩
  · exact ⟨_, _, (Prod.mk.inj (Option.some.inj h)).2.symm⟩
  · split at h
    · exact ⟨_, _, (Prod.mk.inj (Option.some.inj h)).2.symm⟩
    · split at h
      · exact ⟨_, _, (Prod.mk.inj (Option.some.inj h)).2.symm⟩
      · cases h

/-- What a request makes of a session. -/
inductive Asked (s : Session) (payload : Json.Members) : Session → Prop where
  /-- The process has ended and is not asked. -/
  | gone {code : Int} (hexit : s.child.exit = some code) : Asked s payload s
  /-- The process does not take the line, but the number is used up. -/
  | refused {reason : Text} (hexit : s.child.exit = none)
      (hreact : s.child.behaviour.react
        (s.child.written ++ [requestLine payload (s.last + 1)]) = .refuse reason) :
      Asked s payload { s with last := s.last + 1 }
  /-- The line reaches the process. -/
  | written {output errors : Text} {exit : Option Int} {t : Session} (hexit : s.child.exit = none)
      (hreact : s.child.behaviour.react
        (s.child.written ++ [requestLine payload (s.last + 1)]) = .write output errors exit)
      (hwritten : t.child.written = s.child.written ++ [requestLine payload (s.last + 1)])
      (hlast : t.last = s.last + 1) (hbehaviour : t.child.behaviour = s.child.behaviour)
      (hended : t.child.exit = exit) : Asked s payload t

theorem asked_of_request [Host] {s t : Session} {payload : Json.Members}
    {answer : Except Fault Json.Members} (h : s.request payload = some (answer, t)) :
    Asked s payload t := by
  unfold request at h
  cases hexit : s.child.exit with
  | some code =>
    simp only [hexit, Option.some.injEq, Prod.mk.injEq] at h
    obtain ⟨-, rfl⟩ := h
    exact .gone hexit
  | none =>
    simp only [hexit, Child.write] at h
    cases hreact : s.child.behaviour.react
        (s.child.written ++ [requestLine payload (s.last + 1)]) with
    | refuse reason =>
      simp only [hreact, Option.some.injEq, Prod.mk.injEq] at h
      obtain ⟨-, rfl⟩ := h
      exact .refused hexit hreact
    | write output errors exit =>
      simp only [hreact, Option.map_eq_some_iff, Prod.mk.injEq] at h
      obtain ⟨⟨heard, u⟩, hhear, -, rfl⟩ := h
      obtain ⟨unread, unfinished, rfl⟩ := same_of_hear? hhear
      have halive : ({ s.child with
          exit := none
          written := s.child.written ++ [requestLine payload (s.last + 1)] } : Child).exit = none :=
        rfl
      exact .written hexit hreact (Child.emit_written _ _ _ _) rfl
        (Child.behaviour_emit halive _ _ _) (Child.exit_emit halive _ _ _)

theorem requests_cons_eq_some_iff [Host] {s t : Session} {payload : Json.Members}
    {payloads : List Json.Members} {answers : List (Except Fault Json.Members)} :
    s.requests (payload :: payloads) = some (answers, t) ↔ ∃ answer others u,
      answers = answer :: others ∧ s.request payload = some (answer, u) ∧
      u.requests payloads = some (others, t) := by
  simp only [requests, Option.bind_eq_bind, Option.bind_eq_some_iff, Option.pure_def,
    Option.some.injEq, Prod.mk.injEq]
  constructor
  · rintro ⟨⟨answer, u⟩, hfirst, ⟨others, v⟩, hothers, rfl, rfl⟩
    exact ⟨answer, others, u, rfl, hfirst, hothers⟩
  · rintro ⟨answer, others, u, rfl, hfirst, hothers⟩
    exact ⟨(answer, u), hfirst, (others, t), hothers, rfl, rfl⟩

theorem requests_singleton [Host] {s t : Session} {payload : Json.Members}
    {answer : Except Fault Json.Members} (h : s.request payload = some (answer, t)) :
    s.requests [payload] = some ([answer], t) :=
  requests_cons_eq_some_iff.mpr ⟨answer, [], t, rfl, h, rfl⟩

theorem requests_append [Host] {s t u : Session} {payloads more : List Json.Members}
    {answers others : List (Except Fault Json.Members)}
    (hfirst : s.requests payloads = some (answers, t))
    (hmore : t.requests more = some (others, u)) :
    s.requests (payloads ++ more) = some (answers ++ others, u) := by
  induction payloads generalizing s answers with
  | nil =>
    obtain ⟨rfl, rfl⟩ := Prod.mk.inj (Option.some.inj hfirst)
    exact hmore
  | cons payload payloads ih =>
    obtain ⟨answer, rest, v, rfl, hasked, hrest⟩ := requests_cons_eq_some_iff.mp hfirst
    exact requests_cons_eq_some_iff.mpr ⟨answer, rest ++ others, v, rfl, hasked, ih hrest⟩

/-- The lines that ask for several things, numbered from a given number on. -/
def requestLines : Nat → List Json.Members → List Text
  | _, [] => []
  | number, payload :: payloads => requestLine payload number :: requestLines (number + 1) payloads

section Requests

variable {s t : Session} {payloads : List Json.Members}
  {answers : List (Except Fault Json.Members)}

/-- A process that has ended is left as it is. -/
theorem eq_of_requests_of_exit [Host] {code : Int} (hexit : s.child.exit = some code)
    (h : s.requests payloads = some (answers, t)) : t = s := by
  induction payloads generalizing answers with
  | nil => exact (Prod.mk.inj (Option.some.inj h)).2.symm
  | cons payload payloads ih =>
    obtain ⟨answer, others, u, rfl, hasked, hothers⟩ := requests_cons_eq_some_iff.mp h
    have hgone : s.request payload = some (.error (.bridge (.gone code)), s) := by
      simp [request, hexit]
    obtain ⟨-, rfl⟩ := Prod.mk.inj (Option.some.inj (hgone.symm.trans hasked))
    exact ih hothers

/-- What has been written is some of the lines, in their order. -/
theorem written_sublist [Host] (h : s.requests payloads = some (answers, t)) :
    ∃ sent, t.child.written = s.child.written ++ sent ∧
      sent.Sublist (requestLines (s.last + 1) payloads) := by
  induction payloads generalizing s answers with
  | nil =>
    obtain ⟨-, rfl⟩ := Prod.mk.inj (Option.some.inj h)
    exact ⟨[], (List.append_nil _).symm, List.Sublist.refl _⟩
  | cons payload payloads ih =>
    obtain ⟨answer, others, u, rfl, hasked, hothers⟩ := requests_cons_eq_some_iff.mp h
    cases asked_of_request hasked with
    | gone hexit =>
      rw [eq_of_requests_of_exit hexit hothers]
      exact ⟨[], (List.append_nil _).symm, List.nil_sublist _⟩
    | refused hexit hreact =>
      obtain ⟨sent, hwritten, hsent⟩ := ih hothers
      exact ⟨sent, hwritten, hsent.cons _⟩
    | written hexit hreact hwritten hlast hbehaviour hended =>
      obtain ⟨sent, hsent, hsublist⟩ := ih hothers
      refine ⟨requestLine payload (s.last + 1) :: sent, ?_, ?_⟩
      · rw [hsent, hwritten, List.append_assoc]
        rfl
      · rw [hlast] at hsublist
        exact hsublist.cons_cons _

/-- Where the process takes each line, the first few of them have been written. -/
theorem written_of_takesEach [Host]
    (htakes : s.child.behaviour.TakesEach s.child.written (requestLines (s.last + 1) payloads))
    (h : s.requests payloads = some (answers, t)) :
    ∃ k ≤ payloads.length,
      t.child.written = s.child.written ++ (requestLines (s.last + 1) payloads).take k := by
  induction payloads generalizing s answers with
  | nil =>
    obtain ⟨-, rfl⟩ := Prod.mk.inj (Option.some.inj h)
    exact ⟨0, Nat.le_refl 0, (List.append_nil _).symm⟩
  | cons payload payloads ih =>
    obtain ⟨answer, others, u, rfl, hasked, hothers⟩ := requests_cons_eq_some_iff.mp h
    obtain ⟨⟨output, errors, exit, htaken⟩, htakes⟩ := htakes
    cases asked_of_request hasked with
    | gone hexit =>
      rw [eq_of_requests_of_exit hexit hothers]
      exact ⟨0, Nat.zero_le _, (List.append_nil _).symm⟩
    | refused hexit hreact =>
      rw [htaken] at hreact
      cases hreact
    | written hexit hreact hwritten hlast hbehaviour hended =>
      rw [← hbehaviour, ← hwritten, ← hlast] at htakes
      obtain ⟨k, hk, hsent⟩ := ih htakes hothers
      refine ⟨k + 1, Nat.succ_le_succ hk, ?_⟩
      rw [hsent, hwritten, hlast, requestLines, List.take_succ_cons, List.append_assoc]
      rfl

/-- Where the process takes no line, none has been written. -/
theorem written_of_refusesEach [Host]
    (hrefuses : s.child.behaviour.RefusesEach s.child.written
      (requestLines (s.last + 1) payloads))
    (h : s.requests payloads = some (answers, t)) : t.child.written = s.child.written := by
  induction payloads generalizing s answers with
  | nil =>
    obtain ⟨-, rfl⟩ := Prod.mk.inj (Option.some.inj h)
    rfl
  | cons payload payloads ih =>
    obtain ⟨answer, others, u, rfl, hasked, hothers⟩ := requests_cons_eq_some_iff.mp h
    obtain ⟨⟨reason, hrefused⟩, hrefuses⟩ := List.forall_mem_cons.mp hrefuses
    cases asked_of_request hasked with
    | gone hexit => rw [eq_of_requests_of_exit hexit hothers]
    | refused hexit hreact => exact ih (s := { s with last := s.last + 1 }) hrefuses hothers
    | written hexit hreact hwritten hlast hbehaviour hended =>
      rw [hrefused] at hreact
      cases hreact

/-- Where the process takes each line and does not end on any, all have been written. -/
theorem written_of_outlivesEach [Host] (halive : s.child.exit = none)
    (houtlives : s.child.behaviour.OutlivesEach s.child.written
      (requestLines (s.last + 1) payloads))
    (h : s.requests payloads = some (answers, t)) :
    t.child.written = s.child.written ++ requestLines (s.last + 1) payloads := by
  induction payloads generalizing s answers with
  | nil =>
    obtain ⟨-, rfl⟩ := Prod.mk.inj (Option.some.inj h)
    exact (List.append_nil _).symm
  | cons payload payloads ih =>
    obtain ⟨answer, others, u, rfl, hasked, hothers⟩ := requests_cons_eq_some_iff.mp h
    obtain ⟨⟨output, errors, htaken⟩, houtlives⟩ := houtlives
    cases asked_of_request hasked with
    | gone hexit =>
      rw [halive] at hexit
      cases hexit
    | refused hexit hreact =>
      rw [htaken] at hreact
      cases hreact
    | written hexit hreact hwritten hlast hbehaviour hended =>
      obtain ⟨-, -, rfl⟩ := Reaction.write.inj (htaken.symm.trans hreact)
      rw [← hbehaviour, ← hwritten, ← hlast] at houtlives
      rw [ih hended houtlives hothers, hwritten, hlast, requestLines, List.append_assoc]
      rfl

end Requests

theorem written_close (s : Session) : s.close.1.child.written = s.child.written := by
  have hcloses := s.closes
  generalize s.close = r at hcloses ⊢
  cases hcloses with
  | gone hexit => rfl
  | leaves hexit hcode => exact Child.finish_written _ _
  | stubborn hexit hcode => exact Child.finish_written _ _

theorem last_close (s : Session) : s.close.1.last = s.last := by
  have hcloses := s.closes
  generalize s.close = r at hcloses ⊢
  cases hcloses <;> rfl

theorem same_of_greeting? [Host] {s t : Session} {timeout : Option Number}
    {greeting : Except (Sum StartFault ValueFault) Json.Members}
    (h : s.greeting? timeout = some (greeting, t)) :
    ∃ unread unfinished, t = { s with child := { s.child with unread, unfinished } } := by
  unfold greeting? at h
  split at h
  · exact ⟨_, _, (Prod.mk.inj (Option.some.inj h)).2.symm⟩
  · split at h
    · rename_i hhear
      obtain ⟨-, rfl⟩ := Prod.mk.inj (Option.some.inj h)
      exact same_of_hear? hhear
    · rename_i hhear
      obtain ⟨-, rfl⟩ := Prod.mk.inj (Option.some.inj h)
      exact same_of_hear? hhear
    · rename_i hhear
      obtain ⟨-, rfl⟩ := Prod.mk.inj (Option.some.inj h)
      exact same_of_hear? hhear
    · split at h
      · exact ⟨_, _, (Prod.mk.inj (Option.some.inj h)).2.symm⟩
      · cases h

/-- What a session is like once it is known whether it can be used: nothing has been asked, and
it is closed if a fault of a bridge was found. -/
structure Greeted (p : Child) (outcome : Except Fault Unit) (s : Session) : Prop where
  last : s.last = 0
  written : s.child.written = p.written
  ready : outcome = .ok () → s.child.behaviour = p.behaviour ∧ s.child.exit = p.exit
  closed : ∀ fault, outcome = .error (.bridge fault) → ∃ code, s.child.exit = some code
  left : ∀ fault, outcome = .error (.value fault) → s.child.exit = p.exit

theorem greeted_of_refused {p : Child} {s t : Session} {fault : BridgeFault}
    {outcome : Except Fault Unit} {noted : List Notice} (hlast : s.last = 0)
    (hwritten : s.child.written = p.written) (h : s.refused fault = (outcome, t, noted)) :
    Greeted p outcome t := by
  simp only [refused, Prod.mk.injEq] at h
  obtain ⟨rfl, rfl, -⟩ := h
  refine ⟨(last_close s).trans hlast, (written_close s).trans hwritten, ?_, ?_, ?_⟩
  · intro hready
    cases hready
  · exact fun _ _ => ⟨_, exit_close s⟩
  · intro fault hvalue
    cases hvalue

theorem greeted_of_connect [Host] {p : Child} {timeout : Option Number}
    {outcome : Except Fault Unit}
    {s : Session} {noted : List Notice} (h : connect p timeout = some (outcome, s, noted)) :
    Greeted p outcome s := by
  obtain ⟨⟨greeting, t⟩, hgreet, heq⟩ := Option.map_eq_some_iff.mp h
  obtain ⟨unread, unfinished, rfl⟩ := same_of_greeting? hgreet
  cases greeting with
  | error fault =>
    cases fault with
    | inl fault => exact greeted_of_refused rfl rfl heq
    | inr fault =>
      obtain ⟨rfl, rfl, -⟩ := by simpa only [Prod.mk.injEq] using heq
      exact ⟨rfl, rfl, by simp, by simp, fun _ _ => rfl⟩
  | ok members =>
    dsimp only at heq
    split at heq
    · obtain ⟨rfl, rfl, -⟩ := by simpa only [Prod.mk.injEq] using heq
      exact ⟨rfl, rfl, fun _ => ⟨rfl, rfl⟩, by simp, by simp⟩
    · refine greeted_of_refused ?_ ?_ heq
      · unfold unready
        split <;> rfl
      · unfold unready
        split <;> rfl

end Session

end FragmentLint
