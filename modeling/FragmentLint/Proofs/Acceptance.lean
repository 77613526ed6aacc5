import FragmentLint.Parser.Diagram
import FragmentLint.Parser.Formula
import FragmentLint.Proofs.Answers

/-!
# When a parser accepts

Acceptance is said here in terms of what crosses the pipes of a process, not of what any layer
above makes of it. A diagram is accepted if the session reads, for the request that asks about
it, an answer with the number of that request and a true `ok`. A formula is accepted if the
last line of its own script's output that is an object has a true `ok`. Every other course of
events ends in a failure, with one exception that goes the other way: if what a script wrote is
no UTF-8, or a line behind its last object cannot be read at all, the formula fails although it
was accepted.
-/
namespace FragmentLint

namespace Reply

theorem accepts_iff {reply : Json.Members} :
    accepts reply = true ↔ ∃ ok, reply.get? "ok" = some ok ∧ ok.isTruthy = true := by
  unfold accepts
  cases reply.get? "ok" <;> simp

end Reply

namespace Verdict

theorem failure?_eq_none_iff {v : Verdict} : v.failure? = none ↔ v = .accepted := by
  cases v <;> simp [failure?]

end Verdict

namespace Session

/-- The session takes the line of its next request, and the first message that it reads then is
an answer with the number of that request and a true `ok`. -/
def Accepts [Host] (s : Session) (payload : Json.Members) : Prop :=
  ∃ (child : Child) (stray rest : List Text) (line : Text) (answer : Json.Members) (id ok : Json),
    s.child.exit = none ∧
    s.child.write (requestLine payload (s.last + 1)) = .ok child ∧
    child.unread = stray ++ line :: rest ∧ (∀ l ∈ stray, Stray l) ∧
    Child.isOverlong line = false ∧ Json.read (Text.trim line) = .ok (.obj answer) ∧
    answer.get? "id" = some id ∧ id.equalsInt (s.last + 1 : Nat) = true ∧
    answer.get? "ok" = some ok ∧ ok.isTruthy = true

theorem replyTo_eq_ok_iff {number : Nat} {members answer : Json.Members} :
    replyTo number members = .ok answer ↔
      members = answer ∧ ∃ id, members.get? "id" = some id ∧ id.equalsInt number = true := by
  unfold replyTo
  cases hid : members.get? "id" with
  | none => simp [Json.equalsInt]
  | some id => cases h : id.equalsInt number <;> simp [h]

/-- A message that is no answer to a request is a fault of the bridge. -/
theorem bridge_of_replyTo {number : Nat} {members : Json.Members} {fault : Fault}
    (h : replyTo number members = .error fault) : ∃ f, fault = .bridge f := by
  simp only [replyTo] at h
  split at h
  · simp at h
  · exact ⟨_, (Except.error.inj h).symm⟩

theorem hear?_message_iff [Host] {s t : Session} {members : Json.Members} :
    s.hear? = some (.message members, t) ↔
      ∃ rest, message? s.child.unread = some (.ok members, rest) ∧ t = s.withUnread rest := by
  unfold hear?
  cases hm : message? s.child.unread with
  | none => cases Child.isOverlong s.child.unfinished <;> cases s.child.exit <;> simp
  | some r =>
    obtain ⟨said, rest⟩ := r
    cases said <;> simp [eq_comm]

/-- A request is answered by an object exactly if the session reads one with its number. -/
theorem request_eq_ok_iff [Host] {s t : Session} {payload answer : Json.Members} :
    s.request payload = some (.ok answer, t) ↔ ∃ child rest,
      s.child.exit = none ∧ s.child.write (requestLine payload (s.last + 1)) = .ok child ∧
      message? child.unread = some (.ok answer, rest) ∧
      (∃ id, answer.get? "id" = some id ∧ id.equalsInt (s.last + 1 : Nat) = true) ∧
      t = ({ s with child, last := s.last + 1 } : Session).withUnread rest := by
  unfold request
  cases hexit : s.child.exit with
  | some code => simp
  | none =>
    cases hwrite : s.child.write (requestLine payload (s.last + 1)) with
    | error reason => simp [hwrite]
    | ok child =>
      simp only [hwrite, Option.map_eq_some_iff, Prod.mk.injEq, true_and]
      constructor
      · rintro ⟨⟨heard, u⟩, hheard, hanswer, rfl⟩
        cases heard with
        | ended code detail => simp [answerTo] at hanswer
        | fault fault => simp [answerTo] at hanswer
        | message members =>
          obtain ⟨rest, hmsg, rfl⟩ := hear?_message_iff.mp hheard
          obtain ⟨rfl, hid⟩ := replyTo_eq_ok_iff.mp hanswer
          exact ⟨child, rest, rfl, hmsg, hid, rfl⟩
      · rintro ⟨child', rest, heq, hmsg, hid, rfl⟩
        obtain rfl : child = child' := by simpa using heq
        refine ⟨(.message answer, _), hear?_message_iff.mpr ⟨rest, hmsg, rfl⟩, ?_, rfl⟩
        exact replyTo_eq_ok_iff.mpr ⟨rfl, hid⟩

theorem accepts_iff [Host] {s : Session} {payload : Json.Members} :
    s.Accepts payload ↔
      ∃ answer t, s.request payload = some (.ok answer, t) ∧ Reply.accepts answer = true := by
  constructor
  · rintro ⟨child, stray, rest, line, answer, id, ok, hexit, hwrite, hunread, hstray, hlong, hread,
      hid, hnumber, hok, htrue⟩
    refine ⟨answer, _, request_eq_ok_iff.mpr ⟨child, rest, hexit, hwrite, ?_, ⟨id, hid, hnumber⟩,
      rfl⟩, Reply.accepts_iff.mpr ⟨ok, hok, htrue⟩⟩
    have hsaid : said? line = some (.ok answer) := Json.said?_eq_ok_iff.mpr hread
    exact message?_eq_some_iff.mpr
      ⟨stray, line, hunread, hstray, read?_eq_ok_iff.mpr ⟨hlong, hsaid⟩⟩
  · rintro ⟨answer, t, hrequest, haccepts⟩
    obtain ⟨child, rest, hexit, hwrite, hmsg, ⟨id, hid, hnumber⟩, -⟩ :=
      request_eq_ok_iff.mp hrequest
    obtain ⟨stray, line, hunread, hstray, hline⟩ := message?_eq_some_iff.mp hmsg
    obtain ⟨hlong, hsaid⟩ := read?_eq_ok_iff.mp hline
    obtain ⟨ok, hok, htrue⟩ := Reply.accepts_iff.mp haccepts
    exact ⟨child, stray, rest, line, answer, id, ok, hexit, hwrite, hunread, hstray, hlong,
      Json.said?_eq_ok_iff.mp hsaid, hid, hnumber, hok, htrue⟩

end Session

namespace Diagram

/-- The shared session is up for the caller, and accepts the diagram. -/
def Accepts [Host] (site : Site) (code : Text) (s : Shared World) : Prop :=
  ∃ n session, (s.session site.keeper).1 = some (.ok n) ∧
    (s.session site.keeper).2.2.world.sessions[n]? = some session ∧
    session.Accepts (payload code)

theorem verdict_accepted_iff {outcome : Except ParseFault Unit} :
    (verdict outcome).1 = .accepted ↔ outcome = .ok () := by
  cases outcome with
  | ok u => simp [verdict]
  | error fault =>
    cases fault with
    | rejected message position => simp [verdict]
    | fault f => cases f <;> simp [verdict]

theorem ofReply_eq_ok_iff {reply : Json.Members} :
    ofReply reply = .ok () ↔ Reply.accepts reply = true := by
  cases h : Reply.accepts reply <;> simp [ofReply, h]

theorem accepts_of_parse [Host] {site : Site} {code : Text} {s t : Shared World}
    {noted : List Notice} (h : parse site.keeper code s = some (.ok (), noted, t)) :
    Accepts site code s := by
  unfold parse at h
  split at h
  · simp at h
  · simp at h
  · rename_i n noted' s' hsession
    simp only [Option.bind_eq_bind, Option.bind_eq_some_iff, Option.pure_def, Option.some.injEq,
      Prod.mk.injEq] at h
    obtain ⟨⟨answer, w⟩, hrequest, houtcome, -, -⟩ := h
    simp only [Site.keeper, Site.request] at hrequest
    cases hs : s'.world.sessions[n]? with
    | none => simp [hs] at hrequest
    | some session =>
      simp only [hs, Option.map_eq_some_iff, Prod.mk.injEq] at hrequest
      obtain ⟨⟨reply, session'⟩, hreq, rfl, -⟩ := hrequest
      cases reply with
      | error fault => simp at houtcome
      | ok reply =>
        refine ⟨n, session, by rw [hsession], by rw [hsession]; exact hs, ?_⟩
        exact Session.accepts_iff.mpr ⟨reply, session', hreq, ofReply_eq_ok_iff.mp houtcome⟩

theorem parse_of_accepts [Host] {site : Site} {code : Text} {s : Shared World}
    (h : Accepts site code s) :
    ∃ noted t, parse site.keeper code s = some (.ok (), noted, t) := by
  obtain ⟨n, session, hsession, hs, haccepts⟩ := h
  obtain ⟨answer, session', hreq, hok⟩ := Session.accepts_iff.mp haccepts
  obtain ⟨noted, s', heq⟩ : ∃ noted s', s.session site.keeper = (some (.ok n), noted, s') :=
    ⟨_, _, Prod.ext hsession rfl⟩
  rw [heq] at hs
  have hrequest : site.keeper.request n (payload code) s'.world =
      some (.ok answer, { s'.world with sessions := s'.world.sessions.set n session' }) := by
    simp [Site.keeper, Site.request, hs, hreq]
  exact ⟨noted, _, by simp [parse, heq, hrequest, ofReply_eq_ok_iff.mpr hok]; rfl⟩

/-- A diagram that was checked has no failure exactly if it was accepted. -/
theorem check_accepted_iff [Host] {site : Site} {code : Text} {s : Shared World}
    {answer : Checked (Shared World)} (h : check site.keeper code s = some answer) :
    answer.verdict.failure? = none ↔ Accepts site code s := by
  simp only [check, Option.bind_eq_bind, Option.bind_eq_some_iff, Option.pure_def,
    Option.some.injEq] at h
  obtain ⟨⟨outcome, noted, t⟩, hparse, rfl⟩ := h
  rw [Verdict.failure?_eq_none_iff, verdict_accepted_iff]
  constructor
  · rintro rfl
    exact accepts_of_parse hparse
  · intro haccepts
    obtain ⟨noted', t', hparse'⟩ := parse_of_accepts haccepts
    rw [hparse] at hparse'
    simp only [Option.some.injEq, Prod.mk.injEq] at hparse'
    exact hparse'.1

end Diagram

/-- What a run of a script wrote to its output, if there was a run. -/
def ScriptEnd.output? : ScriptEnd → Option Text
  | .refused _ => none
  | .finished output _ _ | .undecodable output _ => some output

namespace Formula

/-- How the script that is run for a formula ends. -/
def Ends (site : Site) (options : Options) (code : Text) (w : World) (ending : ScriptEnd) : Prop :=
  ∃ settings, site.settings? = .ok settings ∧
    site.runScript (w.attempts .math)
      (Script.call (payload code options.displayMode options.strict) settings) = ending

/-- The last object on the output of the script that is run for a formula, with the lines
behind it. -/
def Answers [Host] (site : Site) (options : Options) (code : Text) (w : World)
    (answer : Json.Members) (after : List Text) : Prop :=
  ∃ ending output, Ends site options code w ending ∧ ending.output? = some output ∧
    Script.LastObject (Script.splitLines output) answer after

/-- The last object on the output of the formula's own script has a true `ok`. -/
def Accepts [Host] (site : Site) (options : Options) (code : Text) (w : World) : Prop :=
  ∃ answer after ok, Answers site options code w answer after ∧
    answer.get? "ok" = some ok ∧ ok.isTruthy = true

/-- What the formula's own script wrote is no UTF-8, or a line behind the last object cannot be
read. -/
def Spoiled [Host] (site : Site) (options : Options) (code : Text) (w : World) : Prop :=
  (∃ output fault, Ends site options code w (.undecodable output fault)) ∨
    ∃ answer after, Answers site options code w answer after ∧ ∃ l ∈ after, Script.Unreadable l

theorem verdict_accepted_iff {outcome : Except ParseFault Unit} :
    verdict outcome = .accepted ↔ outcome = .ok () := by
  cases outcome with
  | ok u => simp [verdict]
  | error fault =>
    cases fault with
    | rejected message position => simp [verdict]
    | fault f => cases f <;> simp [verdict]

theorem ofReply_eq_ok_iff {code : Text} {reply : Json.Members} :
    ofReply code reply = .ok () ↔ Reply.accepts reply = true := by
  unfold ofReply
  cases Reply.accepts reply with
  | true => simp
  | false =>
    simp only [Bool.false_eq_true, if_false, iff_false]
    intro h
    split at h
    · split at h
      · simp at h
      · split at h <;> simp at h
    · simp at h

theorem ends_of_settings {site : Site} {options : Options} {code : Text} {w : World}
    {settings : Settings} (h : site.settings? = .ok settings) :
    Ends site options code w (site.runScript (w.attempts .math)
      (Script.call (payload code options.displayMode options.strict) settings)) :=
  ⟨settings, h, rfl⟩

theorem ends_unique {site : Site} {options : Options} {code : Text} {w : World}
    {ending ending' : ScriptEnd} (h : Ends site options code w ending)
    (h' : Ends site options code w ending') : ending = ending' := by
  obtain ⟨settings, hsettings, rfl⟩ := h
  obtain ⟨settings', hsettings', rfl⟩ := h'
  obtain rfl : settings = settings' := by simpa [hsettings] using hsettings'
  rfl

theorem answers_unique [Host] {site : Site} {options : Options} {code : Text} {w : World}
    {answer answer' : Json.Members} {after after' : List Text}
    (h : Answers site options code w answer after)
    (h' : Answers site options code w answer' after') : answer = answer' ∧ after = after' := by
  obtain ⟨ending, output, hends, houtput, hlast⟩ := h
  obtain ⟨ending', output', hends', houtput', hlast'⟩ := h'
  obtain rfl := ends_unique hends hends'
  obtain rfl : output = output' := by simpa [houtput] using houtput'
  exact Script.lastObject_unique hlast hlast'

/-- What a script answers is the last object on its output, unless its output or a line behind
that object cannot be read. -/
theorem parse_eq_ok_iff [Host] {site : Site} {options : Options} {code : Text} {w : World} :
    (parse site code options.displayMode options.strict w).1 = .ok () ↔
      ∃ output errors exit answer after, Ends site options code w (.finished output errors exit) ∧
        Script.LastObject (Script.splitLines output) answer after ∧
        (∀ l ∈ after, ¬ Script.Unreadable l) ∧ Reply.accepts answer = true := by
  unfold parse
  cases hsettings : site.settings? with
  | error fault => simp [Ends, hsettings]
  | ok settings =>
    simp only [Site.runOnce]
    cases hreply : Script.reply settings.executable (site.runScript (w.attempts .math)
        (Script.call (payload code options.displayMode options.strict) settings)) with
    | error fault =>
      simp only [reduceCtorEq, false_iff]
      rintro ⟨output, errors, exit, answer, after, ⟨settings', hsettings', hrun⟩, hlast, hread, -⟩
      obtain rfl : settings = settings' := by simpa [hsettings] using hsettings'
      rw [Script.reply_eq_ok_iff.mpr ⟨output, errors, exit, after, hrun, hlast, hread⟩] at hreply
      simp at hreply
    | ok reply =>
      obtain ⟨output, errors, exit, after, hrun, hlast, hread⟩ := Script.reply_eq_ok_iff.mp hreply
      have hends : Ends site options code w (.finished output errors exit) :=
        ⟨settings, hsettings, hrun⟩
      rw [ofReply_eq_ok_iff]
      constructor
      · intro haccepts
        exact ⟨output, errors, exit, reply, after, hends, hlast, hread, haccepts⟩
      · rintro ⟨output', errors', exit', answer, after', hends', hlast', -, haccepts⟩
        obtain ⟨rfl, -, -⟩ : output = output' ∧ errors = errors' ∧ exit = exit' := by
          simpa using ends_unique hends hends'
        obtain ⟨rfl, -⟩ := Script.lastObject_unique hlast hlast'
        exact haccepts

/-- A formula that was checked has no failure exactly if it was accepted and its answer was not
spoiled. -/
theorem check_accepted_iff [Host] {site : Site} {options : Options} {code : Text} {w : World} :
    (check site options code w).verdict.failure? = none ↔
      Accepts site options code w ∧ ¬ Spoiled site options code w := by
  have hverdict : (check site options code w).verdict =
      verdict (parse site code options.displayMode options.strict w).1 := rfl
  rw [hverdict, Verdict.failure?_eq_none_iff, verdict_accepted_iff, parse_eq_ok_iff]
  constructor
  · rintro ⟨output, errors, exit, answer, after, hends, hlast, hread, haccepts⟩
    obtain ⟨ok, hok, htrue⟩ := Reply.accepts_iff.mp haccepts
    have hanswers : Answers site options code w answer after := ⟨_, output, hends, rfl, hlast⟩
    refine ⟨⟨answer, after, ok, hanswers, hok, htrue⟩, ?_⟩
    rintro (⟨output', fault, hends'⟩ | ⟨answer', after', hanswers', l, hl, hunread⟩)
    · exact absurd (ends_unique hends hends') (by simp)
    · obtain ⟨-, rfl⟩ := answers_unique hanswers hanswers'
      exact hread l hl hunread
  · rintro ⟨⟨answer, after, ok, hanswers, hok, htrue⟩, hspoiled⟩
    have hread : ∀ l ∈ after, ¬ Script.Unreadable l :=
      fun l hl hunread => hspoiled (.inr ⟨answer, after, hanswers, l, hl, hunread⟩)
    obtain ⟨ending, output, hends, houtput, hlast⟩ := hanswers
    cases ending with
    | refused reason => simp [ScriptEnd.output?] at houtput
    | undecodable output' fault => exact absurd (.inl ⟨output', fault, hends⟩) hspoiled
    | finished output' errors exit =>
      obtain rfl : output' = output := by simpa [ScriptEnd.output?] using houtput
      exact ⟨output', errors, exit, answer, after, hends, hlast, hread,
        Reply.accepts_iff.mpr ⟨ok, hok, htrue⟩⟩

end Formula

end FragmentLint
