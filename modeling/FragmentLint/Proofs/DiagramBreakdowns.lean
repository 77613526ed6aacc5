import FragmentLint.Proofs.FailClosed
import FragmentLint.Proofs.SessionFaults
import FragmentLint.Proofs.SharedUse

/-!
# When the parser of diagrams breaks down

All diagrams are parsed over one session, so what breaks the parser for one of them may lie in the
start of the session, which is kept, or in the answer to its own request. In both cases it is the
first piece of output that says anything, and that goes beyond what can be read: by a number, by
its brackets, or by its length. The state of the shared
session is followed from one piece of code to the next: all that matters of it is that it began in
a given world and that nothing but parsing has happened since. A run notes that the parser broke
down at exactly those pieces of code.
-/
namespace FragmentLint

namespace Shared

/-- What is noted when a caller finds or makes a start-up. -/
theorem notice_of_begin {ω : Type} {k : Keeper ω} {s : Shared ω} {n : Notice}
    (h : n ∈ (s.begin k).2.1) : n = .strayed ∨ ∃ w, n ∈ (k.start w).2.1 := by
  cases hcurrent : s.current? with
  | some startup =>
    rw [begin_of_some hcurrent] at h
    cases h
  | none =>
    simp only [begin, hcurrent] at h
    obtain hleft | hstart := List.mem_append.mp h
    · refine .inl ?_
      split at hleft
      · unfold abandon at hleft
        split at hleft
        · exact List.mem_singleton.mp hleft
        · cases hleft
      · cases hleft
    · exact .inr ⟨_, hstart⟩

end Shared

namespace Pipeline

/-- A run notes that the parser broke down exactly at a verdict that says so. -/
theorem parserBroke_mem_judge {p : Pipeline} {parser : Text} {f : Fragment} {v : Verdict} :
    .parserBroke parser ∈ (p.judge parser f v).2 ↔ ∃ d, v = .broke d := by
  have hdiagnosis : ∀ failure, .parserBroke parser ∉ (p.diagnosis failure f.code).2 := by
    intro failure
    unfold diagnosis
    split <;> simp
  cases v with
  | accepted => simp [judge, Verdict.failure?, Verdict.notices]
  | rejected failure => simp [judge, Verdict.failure?, Verdict.notices, hdiagnosis]
  | broke d => simp [judge, Verdict.failure?, Verdict.notices]

end Pipeline

namespace Diagram

/-- What parsing a diagram comes to: the start-up fails, or the session is asked. -/
theorem parse_cases {ω : Type} {k : Keeper ω} {code : Text} {s t : Shared ω}
    {outcome : Except ParseFault Unit} {noted : List Notice}
    (h : parse k code s = some (outcome, noted, t)) :
    noted = (s.session k).2.1 ∧
      ((∃ fault, (s.session k).1 = some (.error fault) ∧ outcome = .error (.fault fault) ∧
          t = (s.session k).2.2) ∨
        ∃ n answer world, (s.session k).1 = some (.ok n) ∧
          k.request n (payload code) (s.session k).2.2.world = some (answer, world) ∧
          t = { (s.session k).2.2 with world } ∧
          ((∃ fault, answer = .error fault ∧ outcome = .error (.fault fault)) ∨
            ∃ reply, answer = .ok reply ∧ outcome = ofReply reply)) := by
  unfold parse at h
  split at h
  · cases h
  · rename_i fault noted' s' hsession
    simp only [Option.some.injEq, Prod.mk.injEq] at h
    obtain ⟨rfl, rfl, rfl⟩ := h
    rw [hsession]
    exact ⟨rfl, .inl ⟨fault, rfl, rfl, rfl⟩⟩
  · rename_i n noted' s' hsession
    simp only [Option.bind_eq_bind, Option.bind_eq_some_iff, Option.pure_def, Option.some.injEq,
      Prod.mk.injEq] at h
    obtain ⟨⟨answer, world⟩, hrequest, houtcome, rfl, rfl⟩ := h
    rw [hsession]
    refine ⟨rfl, .inr ⟨n, answer, world, rfl, hrequest, rfl, ?_⟩⟩
    cases answer with
    | error fault => exact .inl ⟨fault, rfl, houtcome.symm⟩
    | ok reply => exact .inr ⟨reply, rfl, houtcome.symm⟩

theorem parse_eq_none_iff {ω : Type} {k : Keeper ω} {code : Text} {s : Shared ω} :
    parse k code s = none ↔ (s.session k).1 = none ∨ ∃ n, (s.session k).1 = some (.ok n) ∧
      k.request n (payload code) (s.session k).2.2.world = none := by
  unfold parse
  split
  · rename_i hsession
    simp [hsession]
  · rename_i hsession
    simp [hsession]
  · rename_i n noted s' hsession
    cases hrequest : k.request n (payload code) s'.world <;> simp [hsession, hrequest]

/-- What came of the start of a session in a given world is kept. -/
def Kept [Host] (site : Site) (w : World) (s : Shared World) : Prop :=
  s.memo = some ⟨s.loop, (site.start w).1⟩ ∧
    ∀ n, (site.start w).1 = .live n → n < s.world.sessions.length

/-- Nothing but parsing has happened to a shared session since it was in a given world: it has
not been asked for, or what came of its start is kept. -/
def Begun [Host] (site : Site) (w : World) (s : Shared World) : Prop :=
  (s.memo = none ∧ s.world = w) ∨ Kept site w s

section Begun

variable {site : Site} {w : World} {code : Text} {s t : Shared World}

/-- A caller finds or makes the start-up that there is, and it is kept. -/
theorem begun_session [Host] (h : Begun site w s) :
    (s.session site.keeper).1 = Shared.outcome? (site.start w).1 ∧
      Kept site w (s.session site.keeper).2.2 := by
  suffices (s.begin site.keeper).1 = (site.start w).1 ∧ Kept site w (s.begin site.keeper).2.2 from
    ⟨congrArg Shared.outcome? this.1, this.2⟩
  obtain ⟨hmemo, rfl⟩ | hkept := h
  · have hnone : s.current? = none := by simp [Shared.current?, hmemo]
    have hcleared : Shared.cleared site.keeper s = s.world := by simp [Shared.cleared, hmemo]
    obtain ⟨hstartup, hstate⟩ := Shared.begin_of_none (k := site.keeper) hnone
    rw [hcleared] at hstartup hstate
    refine ⟨hstartup, ?_⟩
    rw [hstate]
    exact ⟨rfl, fun n hn => Site.lt_of_start hn⟩
  · rw [Shared.begin_of_some (Shared.current?_eq_some_iff.mpr hkept.1)]
    exact ⟨rfl, hkept⟩

theorem begun_parse [Host] (h : Begun site w s) {outcome : Except ParseFault Unit}
    {noted : List Notice}
    (hparse : parse site.keeper code s = some (outcome, noted, t)) : Begun site w t := by
  obtain ⟨-, hkept⟩ := begun_session h
  obtain ⟨-, ⟨fault, -, -, rfl⟩ | ⟨n, answer, world, -, hrequest, rfl, -⟩⟩ := parse_cases hparse
  · exact .inr hkept
  · obtain ⟨session, session', -, -, rfl⟩ := Site.request_eq_some_iff.mp hrequest
    refine .inr ⟨hkept.1, ?_⟩
    intro m hm
    rw [List.length_set]
    exact hkept.2 m hm

end Begun

/-- A session is up for the caller, and its process, which has not ended, takes the line that asks
about the diagram: this is the process after that. -/
def Written [Host] (site : Site) (code : Text) (s : Shared World) (child : Child) : Prop :=
  ∃ n session, (s.session site.keeper).1 = some (.ok n) ∧
    (s.session site.keeper).2.2.world.sessions[n]? = some session ∧
    session.child.exit = none ∧
    session.child.write (Session.requestLine (payload code) (session.last + 1)) = .ok child

/-- What breaks the parser of diagrams when it is asked in a given state of the shared session,
which began in a given world. -/
inductive Breaks [Host] (site : Site) (w : World) (code : Text) (s : Shared World) :
    ValueFault → Prop where
  /-- The first piece that says anything when the session starts goes beyond what can be read. -/
  | greeting {fault : ValueFault} (hgarbled : site.GreetsGarbled w fault) :
      Breaks site w code s fault
  /-- The first piece that says anything after the request was written goes beyond what can be
  read. -/
  | answer {child : Child} {fault : ValueFault} (hwritten : Written site code s child)
      (hgarbled : Session.Garbled child fault) : Breaks site w code s fault

/-- The parser of diagrams is asked and never answers. -/
inductive Waits [Host] (site : Site) (w : World) (code : Text) (s : Shared World) : Prop where
  /-- The session never becomes ready. -/
  | greeting (hnever : site.GreetsNever w) : Waits site w code s
  /-- The process is silent after the request was written. -/
  | answer {child : Child} (hwritten : Written site code s child)
      (hsilent : Session.Silent child) : Waits site w code s

theorem ofReply_ne_fault (reply : Json.Members) (fault : Fault) :
    ofReply reply ≠ .error (.fault fault) := by
  unfold ofReply
  split <;> simp

section Outcome

variable {site : Site} {w : World} {code : Text} {s t : Shared World}
  {outcome : Except ParseFault Unit} {noted : List Notice}

/-- A caller that is handed a session finds it in the world. -/
theorem sessions_of_begun [Host] (h : Begun site w s) {n : Nat}
    (hup : (s.session site.keeper).1 = some (.ok n)) :
    ∃ session, (s.session site.keeper).2.2.world.sessions[n]? = some session := by
  obtain ⟨hsession, -, hlength⟩ := begun_session h
  rw [hsession] at hup
  exact ⟨_, List.getElem?_eq_getElem (hlength n (Shared.live_of_outcome? hup))⟩

theorem parse_eq_none_iff_waits [Host] (h : Begun site w s) :
    parse site.keeper code s = none ↔ Waits site w code s := by
  obtain ⟨hsession, -⟩ := begun_session h
  rw [parse_eq_none_iff]
  constructor
  · rintro (hnone | ⟨n, hup, hnone⟩)
    · rw [hsession, Shared.outcome?_eq_none_iff] at hnone
      exact .greeting (Site.start_eq_pending_iff.mp hnone)
    · obtain ⟨session, hs⟩ := sessions_of_begun h hup
      rw [Site.request_eq_none_iff hs] at hnone
      obtain ⟨child, hexit, hwrite, hsilent⟩ := Session.request_eq_none_iff.mp hnone
      exact .answer ⟨n, session, hup, hs, hexit, hwrite⟩ hsilent
  · intro hwaits
    cases hwaits with
    | greeting hnever =>
      rw [hsession, Site.start_eq_pending_iff.mpr hnever]
      exact .inl rfl
    | answer hwritten hsilent =>
      obtain ⟨n, session, hup, hs, hexit, hwrite⟩ := hwritten
      refine .inr ⟨_, hup, (Site.request_eq_none_iff hs).mpr ?_⟩
      exact Session.request_eq_none_iff.mpr ⟨_, hexit, hwrite, hsilent⟩

theorem outcome_eq_value_iff [Host] (h : Begun site w s)
    (hparse : parse site.keeper code s = some (outcome, noted, t)) {fault : ValueFault} :
    outcome = .error (.fault (.value fault)) ↔ Breaks site w code s fault := by
  obtain ⟨hsession, -⟩ := begun_session h
  obtain ⟨-, hcases⟩ := parse_cases hparse
  constructor
  · rintro rfl
    -- The fault is that of the start, now or when it was kept, or that of the request.
    obtain ⟨found, hfailed, hfault, -⟩ | ⟨n, answer, world, hup, hrequest, -, houtcome⟩ := hcases
    · obtain rfl := ParseFault.fault.inj (Except.error.inj hfault)
      refine .greeting (Site.start_eq_value_iff.mp ?_)
      rw [hsession] at hfailed
      exact Shared.failed_of_outcome? hfailed
    · obtain ⟨found, rfl, hfault⟩ | ⟨reply, -, hreply⟩ := houtcome
      · obtain rfl := ParseFault.fault.inj (Except.error.inj hfault)
        obtain ⟨session, session', hs, hasked, -⟩ := Site.request_eq_some_iff.mp hrequest
        obtain ⟨child, hexit, hwrite, hgarbled⟩ := Session.request_eq_value_iff.mp ⟨_, hasked⟩
        exact .answer ⟨n, session, hup, hs, hexit, hwrite⟩ hgarbled
      · exact absurd hreply.symm (ofReply_ne_fault _ _)
  · intro hbreaks
    cases hbreaks with
    | greeting hgarbled =>
      rw [hsession, Site.start_eq_value_iff.mpr hgarbled] at hcases
      obtain ⟨found, hfailed, rfl, -⟩ | ⟨n, answer, world, hup, -⟩ := hcases
      · obtain rfl := Except.error.inj (Option.some.inj hfailed)
        rfl
      · cases hup
    | answer hwritten hgarbled =>
      obtain ⟨m, session, hup, hs, hexit, hwrite⟩ := hwritten
      obtain ⟨found, hfailed, -⟩ | ⟨n, answer, world, hup', hrequest, -, houtcome⟩ := hcases
      · rw [hup] at hfailed
        cases hfailed
      · obtain rfl := Except.ok.inj (Option.some.inj (hup.symm.trans hup'))
        obtain ⟨session, session', hs', hasked, -⟩ := Site.request_eq_some_iff.mp hrequest
        obtain rfl := Option.some.inj (hs.symm.trans hs')
        obtain ⟨u, hasked'⟩ := Session.request_eq_value_iff.mpr ⟨_, hexit, hwrite, hgarbled⟩
        obtain rfl := congrArg Prod.fst (Option.some.inj (hasked.symm.trans hasked'))
        obtain ⟨found, hfound, rfl⟩ | ⟨reply, hreply, -⟩ := houtcome
        · obtain rfl := Except.error.inj hfound
          rfl
        · cases hreply

theorem ofProcess_of_outcome [Host] (h : Begun site w s)
    (hparse : parse site.keeper code s = some (outcome, noted, t)) {fault : Fault}
    (hfault : outcome = .error (.fault fault)) : fault.OfProcess := by
  obtain ⟨hsession, -⟩ := begun_session h
  subst hfault
  obtain ⟨-, ⟨found, hfailed, hfault, -⟩ | ⟨n, answer, world, -, hrequest, -, houtcome⟩⟩ :=
    parse_cases hparse
  · obtain rfl := ParseFault.fault.inj (Except.error.inj hfault)
    rw [hsession] at hfailed
    exact Site.ofProcess_of_start (Shared.failed_of_outcome? hfailed)
  · obtain ⟨found, rfl, hfault⟩ | ⟨reply, -, hreply⟩ := houtcome
    · obtain rfl := ParseFault.fault.inj (Except.error.inj hfault)
      obtain ⟨session, session', -, hasked, -⟩ := Site.request_eq_some_iff.mp hrequest
      exact Session.ofProcess_of_request hasked
    · exact absurd hreply.symm (ofReply_ne_fault _ _)

end Outcome

theorem unavailable_of_verdict {outcome : Except ParseFault Unit} {n : Notice}
    (h : n ∈ (verdict outcome).2) : ∃ reason, n = .unavailable reason := by
  unfold verdict at h
  split at h
  · cases h
  · cases h
  · exact ⟨_, List.mem_singleton.mp h⟩
  · cases h

theorem verdict_broke_iff {outcome : Except ParseFault Unit}
    (hfaults : ∀ fault, outcome = .error (.fault fault) → fault.OfProcess) {d : Defect} :
    (verdict outcome).1 = .broke d ↔
      ∃ fault, outcome = .error (.fault (.value fault)) ∧ d = (Fault.value fault).asDefect := by
  cases outcome with
  | ok u => simp [verdict]
  | error fault =>
    cases fault with
    | rejected message position => simp [verdict]
    | fault f =>
      obtain ⟨g, rfl⟩ | ⟨g, rfl⟩ := hfaults f rfl
      · simp [verdict]
      · simp [verdict, eq_comm]

section Check

variable {site : Site} {w : World} {code : Text} {s : Shared World}

theorem check_eq_some_iff [Host] {answer : Checked (Shared World)} :
    check site.keeper code s = some answer ↔ ∃ outcome noted t,
      parse site.keeper code s = some (outcome, noted, t) ∧
      answer = ⟨(verdict outcome).1, noted ++ (verdict outcome).2, t⟩ := by
  unfold check
  cases parse site.keeper code s with
  | none => simp
  | some r =>
    obtain ⟨outcome, noted, t⟩ := r
    constructor
    · intro h
      exact ⟨outcome, noted, t, rfl, (Option.some.inj h).symm⟩
    · rintro ⟨outcome', noted', t', heq, rfl⟩
      obtain ⟨rfl, rfl, rfl⟩ := by simpa using heq
      rfl

theorem check_eq_none_iff [Host] (h : Begun site w s) :
    check site.keeper code s = none ↔ Waits site w code s := by
  rw [← parse_eq_none_iff_waits h]
  unfold check
  cases parse site.keeper code s <;> simp

theorem begun_check [Host] {answer : Checked (Shared World)} (h : Begun site w s)
    (hcheck : check site.keeper code s = some answer) : Begun site w answer.state := by
  obtain ⟨outcome, noted, t, hparse, rfl⟩ := check_eq_some_iff.mp hcheck
  exact begun_parse h hparse

theorem check_broke_iff [Host] {answer : Checked (Shared World)} (h : Begun site w s)
    (hcheck : check site.keeper code s = some answer) {d : Defect} :
    answer.verdict = .broke d ↔
      ∃ fault, Breaks site w code s fault ∧ d = (Fault.value fault).asDefect := by
  obtain ⟨outcome, noted, t, hparse, rfl⟩ := check_eq_some_iff.mp hcheck
  rw [verdict_broke_iff fun fault hfault => ofProcess_of_outcome h hparse hfault]
  simp only [outcome_eq_value_iff h hparse]

/-- That a parser broke down is noted by the run only, not by the parser. -/
theorem parserBroke_not_mem_check [Host] {answer : Checked (Shared World)}
    (hcheck : check site.keeper code s = some answer) (parser : Text) :
    Notice.parserBroke parser ∉ answer.notices := by
  obtain ⟨outcome, noted, t, hparse, rfl⟩ := check_eq_some_iff.mp hcheck
  intro hmem
  obtain hmem | hmem := List.mem_append.mp hmem
  · obtain ⟨rfl, -⟩ := parse_cases hparse
    obtain hstrayed | ⟨w, hstart⟩ :=
      Shared.notice_of_begin (k := site.keeper) (s := s) hmem
    · cases hstrayed
    · obtain ⟨executable, hstarting⟩ | ⟨pid, hstubborn⟩ := Site.notice_of_start hstart
      · cases hstarting
      · cases hstubborn
  · obtain ⟨reason, hunavailable⟩ := unavailable_of_verdict hmem
    cases hunavailable

end Check

/-- A whole number with one digit more than can be read. -/
def ones : Text :=
  List.replicate (Text.digitLimit + 1) '1'

/-- A process that writes that number on a line, and says on the next one that it is ready. -/
def garbledBehaviour : Behaviour :=
  { pid := 1
    output := ones ++ '\n' :: "\x7b\"ready\": true\x7d\n"
    errors := []
    exit := none
    react := fun _ => .write [] [] none
    exitAtClose := some 0 }

/-- A site at which every session has such a process. -/
def garbledSite : Site :=
  { launch := fun _ => .ok garbledBehaviour
    runScript := fun _ _ => .refused "no such program" }

theorem read?_ones [Host] :
    Session.read? ones = some (.error (.tooManyDigits (Text.digitLimit + 1))) := by
  have hbyte : Char.utf8Size '1' = 1 := rfl
  have hshort : Text.digitLimit + 1 ≤ Child.lineLimit := by decide
  have hlong : Child.isOverlong ones = false := by
    rw [Child.isOverlong, ones, Text.bytes_replicate, hbyte, Nat.mul_one]
    exact decide_eq_false (Nat.not_lt.mpr hshort)
  have htrim : Text.trim ones = ones := by
    apply Text.trim_eq_self
    intro c hc
    rw [List.eq_of_mem_replicate hc]
    rfl
  rw [Session.read?, hlong, if_neg Bool.false_ne_true, Session.said?, htrim]
  exact Json.said?_eq_error_iff.mpr ⟨_, Lint.read_ones (Nat.lt_succ_self _), rfl⟩

theorem greetsGarbled_garbledSite [Host] (w : World) :
    garbledSite.GreetsGarbled w (.tooManyDigits (Text.digitLimit + 1)) := by
  obtain ⟨settings, hsettings⟩ : ∃ settings, garbledSite.settings? = .ok settings := ⟨_, rfl⟩
  have hfeed : '\n' ∉ ones := by
    intro h
    cases List.eq_of_mem_replicate h
  have hunread := Child.unread_start (b := garbledBehaviour) rfl hfeed rfl
  exact ⟨settings, garbledBehaviour, hsettings, rfl, [], .line ones, _, Child.pieces_cons hunread,
    by simp, read?_ones⟩

theorem check_of_greetsGarbled [Host] {site : Site} {w : World} {fault : ValueFault}
    (h : site.GreetsGarbled w fault) (code : Text) (loop : Nat) : ∃ answer,
      check site.keeper code { loop, world := w } = some answer ∧
        answer.verdict = .broke (Fault.value fault).asDefect := by
  have hbegun : Begun site w { loop, world := w } := .inl ⟨rfl, rfl⟩
  have hsession := (begun_session hbegun).1
  rw [Site.start_eq_value_iff.mpr h] at hsession
  have hcheck : check site.keeper code { loop, world := w } ≠ none := by
    rw [Ne, check_eq_none_iff hbegun, ← parse_eq_none_iff_waits hbegun, parse_eq_none_iff, hsession]
    simp [Shared.outcome?]
  obtain ⟨answer, hanswer⟩ := Option.ne_none_iff_exists'.mp hcheck
  exact ⟨answer, hanswer, (check_broke_iff hbegun hanswer).mpr ⟨fault, .greeting h, rfl⟩⟩

/-- The state of a session that is shared from a given world on, behind the given pieces of
code. -/
def Reaches [Host] (site : Site) (loop : Nat) (w : World) (codes : List Text) (s : Shared World) :
    Prop :=
  (checker site.keeper).behind? codes { loop, world := w } = some s

theorem begun_of_reaches [Host] {site : Site} {loop : Nat} {w : World} {codes : List Text}
    {s : Shared World} (h : Reaches site loop w codes s) : Begun site w s :=
  Checker.behind?_invariant (c := checker site.keeper) begun_check (.inl ⟨rfl, rfl⟩) h

theorem parserBroke_mem_runFull [Host] {site : Site} {loop : Nat} {w : World} {p : Pipeline}
    {fragments : List Fragment} {events : List Event} {t : Shared World}
    (h : p.runFull (checker site.keeper) fragments { loop, world := w } = some (events, t)) :
    .notice (.parserBroke "mermaid") ∈ events ↔ ∃ codes code rest s fault,
      fragments.filterMap Fragment.asked? = codes ++ code :: rest ∧
      Reaches site loop w codes s ∧ Breaks site w code s fault := by
  obtain ⟨vs, hvs, hnotice⟩ := Pipeline.notice_mem_runFull h
  have hanswers := Checker.answer_mem_visits? hvs
  rw [hnotice]
  constructor
  · rintro ⟨v, hv, hmem⟩
    cases hans : v.answer with
    | none => simp [Visit.noted, hans] at hmem
    | some answer =>
      obtain ⟨codes, code, rest, s, hcodes, hreaches, hcheck⟩ := (hanswers answer).mp ⟨v, hv, hans⟩
      simp only [Visit.noted, hans, List.mem_append] at hmem
      obtain hmem | hmem := hmem
      · exact absurd hmem (parserBroke_not_mem_check hcheck _)
      · obtain ⟨d, hd⟩ := Pipeline.parserBroke_mem_judge.mp hmem
        obtain ⟨fault, hbreaks, -⟩ := (check_broke_iff (begun_of_reaches hreaches) hcheck).mp hd
        exact ⟨codes, code, rest, s, fault, hcodes, hreaches, hbreaks⟩
  · rintro ⟨codes, code, rest, s, fault, hcodes, hreaches, hbreaks⟩
    -- The run has an outcome, so this piece of code was answered too.
    have hbehind := Checker.behind?_of_visits? hvs
    rw [hcodes, Checker.behind?_append, show (checker site.keeper).behind? codes _ = some s from
      hreaches, Option.bind_some] at hbehind
    obtain ⟨answer, hcheck, -⟩ := Option.bind_eq_some_iff.mp hbehind
    obtain ⟨v, hv, hans⟩ :=
      (hanswers answer).mpr ⟨codes, code, rest, s, hcodes, hreaches, hcheck⟩
    have hbroke := (check_broke_iff (begun_of_reaches hreaches) hcheck).mpr ⟨fault, hbreaks, rfl⟩
    refine ⟨v, hv, ?_⟩
    simp only [Visit.noted, hans, List.mem_append]
    exact .inr (Pipeline.parserBroke_mem_judge.mpr ⟨_, hbroke⟩)

/-- A session that is shared from any world on is asked about one piece of code after another.
Whatever its process does, the parser of diagrams has a verdict of its own on each of them, unless
the process stays silent or a line of its output breaks the parser. In a run, too, the parser is
noted to have broken down for no other reason. -/
theorem breaks_on_garbled [Host] (site : Site) (loop : Nat) (w : World) :
    (∀ codes code s, Reaches site loop w codes s →
      (check site.keeper code s = none ↔ Waits site w code s) ∧
      ∀ answer, check site.keeper code s = some answer →
        answer.verdict.OwnUnless (Breaks site w code s)) ∧
    ∀ (p : Pipeline) fragments events t,
      p.runFull (checker site.keeper) fragments { loop, world := w } = some (events, t) →
      (.notice (.parserBroke "mermaid") ∈ events ↔ ∃ codes code rest s fault,
        fragments.filterMap Fragment.asked? = codes ++ code :: rest ∧
        Reaches site loop w codes s ∧ Breaks site w code s fault) := by
  refine ⟨?_, fun p fragments events t h => parserBroke_mem_runFull h⟩
  intro codes code s hreaches
  have hbegun := begun_of_reaches hreaches
  refine ⟨check_eq_none_iff hbegun, ?_⟩
  intro answer hcheck
  exact Verdict.ownUnless_of_broke fun _ => check_broke_iff hbegun hcheck

section

open scoped Host.Usual

/-- A parser whose session greets with a number that cannot be read is noted to have broken down in
a run over a diagram. -/
theorem breaks_on_garbled_greeting : ∃ answer events t,
    check garbledSite.keeper "pie" { world := {} } = some answer ∧
    answer.verdict.OwnUnless (Breaks garbledSite {} "pie" { world := {} }) ∧
    Family.mermaid.pipeline.runFull (checker garbledSite.keeper) [⟨"pie", Line.first⟩]
      { world := {} } = some (events, t) ∧
    .notice (.parserBroke "mermaid") ∈ events := by
  obtain ⟨hchecks, hruns⟩ := breaks_on_garbled garbledSite 0 {}
  have hgarbled := greetsGarbled_garbledSite {}
  obtain ⟨answer, hcheck, -⟩ := check_of_greetsGarbled hgarbled "pie" 0
  obtain ⟨-, hown⟩ := hchecks [] "pie" _ rfl
  have hvisits : (checker garbledSite.keeper).visits? [⟨"pie", Line.first⟩] { world := {} } =
      some ([⟨⟨"pie", Line.first⟩, { world := {} }, some answer⟩], answer.state) := by
    rw [Checker.visits?, Checker.visit?_asked _ (show _ = some "pie".toList from rfl),
      show (checker garbledSite.keeper).check "pie" _ = some answer from hcheck]
    rfl
  have hrun := Family.mermaid.pipeline.runFull_outside (checker garbledSite.keeper)
    [⟨"pie", Line.first⟩] { world := {} }
  rw [hvisits] at hrun
  obtain ⟨⟨events, t⟩, hevents, -⟩ := Option.map_eq_some_iff.mp hrun
  refine ⟨answer, events, t, hcheck, hown answer hcheck, hevents, ?_⟩
  exact (hruns _ _ _ _ hevents).mpr
    ⟨[], "pie", [], { world := {} }, _, rfl, rfl, .greeting hgarbled⟩

/-- Such a parser breaks down, although any other line in front of the greeting would be passed
over. -/
theorem garbled_greeting_breaks : ∃ answer,
    check garbledSite.keeper "pie" { world := {} } = some answer ∧
      answer.verdict = .broke (Fault.value (.tooManyDigits (Text.digitLimit + 1))).asDefect :=
  check_of_greetsGarbled (greetsGarbled_garbledSite _) _ _

end

end Diagram

end FragmentLint
