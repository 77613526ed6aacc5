import FragmentLint.Proofs.Breakdowns

/-!
# What spoils a session

A session may be spoiled when it is greeted and whenever it is asked: by output that goes beyond
what can be read, in what it says or by its length. It may also be left to wait for a process that
stays silent. Each of the two is said here of the output that has not been read, first for a
session by itself and then for the sessions of a site.
-/
namespace FragmentLint

namespace Session

/-- The first piece of a process's output that says anything goes beyond what can be read. -/
def Garbled [Host] (p : Child) (fault : ValueFault) : Prop :=
  ∃ stray piece rest, p.pieces = stray ++ piece :: rest ∧ (∀ x ∈ stray, x.Stray) ∧
    piece.said? = some (.error fault)

theorem garbled_iff [Host] {p : Child} {fault : ValueFault} :
    Garbled p fault ↔ p.pieces.findSome? Piece.said? = some (.error fault) := by
  rw [List.findSome?_eq_some_iff]
  constructor
  · rintro ⟨stray, piece, rest, heq, hstray, hsaid⟩
    exact ⟨stray, piece, rest, heq, hsaid, hstray⟩
  · rintro ⟨stray, piece, rest, heq, hsaid, hstray⟩
    exact ⟨stray, piece, rest, heq, hstray, hsaid⟩

theorem hear?_fault_iff [Host] {s : Session} {fault : ValueFault} :
    (∃ t, s.hear? = some (.fault fault, t)) ↔ Garbled s.child fault := by
  rw [garbled_iff, findSome?_pieces]
  unfold hear?
  cases hm : message? s.child.unread with
  | none => cases Child.isOverlong s.child.unfinished <;> cases s.child.exit <;> simp
  | some r =>
    obtain ⟨said, rest⟩ := r
    cases said <;> simp

/-- A process has written nothing that says anything, and has not ended. -/
def Silent [Host] (p : Child) : Prop :=
  p.exit = none ∧ ∀ x ∈ p.pieces, x.Stray

theorem hear?_eq_none_iff [Host] {s : Session} : s.hear? = none ↔ Silent s.child := by
  have hstray : (∀ x ∈ s.child.pieces, x.Stray) ↔ s.child.pieces.findSome? Piece.said? = none :=
    List.findSome?_eq_none_iff.symm
  rw [Silent, hstray, findSome?_pieces]
  unfold hear?
  cases message? s.child.unread with
  | none => cases Child.isOverlong s.child.unfinished <;> cases s.child.exit <;> simp
  | some r =>
    obtain ⟨said, rest⟩ := r
    cases said <;> simp

theorem ofProcess_of_answerTo {number : Nat} {heard : Heard} {fault : Fault}
    (h : answerTo number heard = .error fault) : fault.OfProcess := by
  cases heard with
  | message members => exact .inl (bridge_of_replyTo h)
  | ended code detail => exact .inl ⟨_, (Except.error.inj h).symm⟩
  | fault f => exact .inr ⟨_, (Except.error.inj h).symm⟩

theorem answerTo_eq_value_iff {number : Nat} {heard : Heard} {fault : ValueFault} :
    answerTo number heard = .error (.value fault) ↔ heard = .fault fault := by
  cases heard with
  | message members =>
    simp only [reduceCtorEq, iff_false]
    intro h
    obtain ⟨f, hf⟩ := bridge_of_replyTo h
    cases hf
  | ended code detail => simp [answerTo]
  | fault f => simp [answerTo]

/-- What a request comes to: the process had ended, or does not take the line, or something is
heard after the line was written. -/
theorem request_cases [Host] {s t : Session} {payload : Json.Members}
    {answer : Except Fault Json.Members} (h : s.request payload = some (answer, t)) :
    (∃ f, answer = .error (.bridge f)) ∨ ∃ child heard, s.child.exit = none ∧
      s.child.write (requestLine payload (s.last + 1)) = .ok child ∧
      ({ s with child, last := s.last + 1 } : Session).hear? = some (heard, t) ∧
      answer = answerTo (s.last + 1) heard := by
  unfold request at h
  cases hexit : s.child.exit with
  | some code =>
    simp only [hexit, Option.some.injEq, Prod.mk.injEq] at h
    exact .inl ⟨_, h.1.symm⟩
  | none =>
    cases hwrite : s.child.write (requestLine payload (s.last + 1)) with
    | error reason =>
      simp only [hexit, hwrite, Option.some.injEq, Prod.mk.injEq] at h
      exact .inl ⟨_, h.1.symm⟩
    | ok child =>
      simp only [hexit, hwrite, Option.map_eq_some_iff, Prod.mk.injEq] at h
      obtain ⟨⟨heard, u⟩, hhear, rfl, rfl⟩ := h
      exact .inr ⟨child, heard, rfl, rfl, hhear, rfl⟩

theorem ofProcess_of_request [Host] {s t : Session} {payload : Json.Members} {fault : Fault}
    (h : s.request payload = some (.error fault, t)) : fault.OfProcess := by
  obtain ⟨f, hf⟩ | ⟨child, heard, -, -, -, hanswer⟩ := request_cases h
  · exact .inl ⟨f, Except.error.inj hf⟩
  · exact ofProcess_of_answerTo hanswer.symm

/-- A request is spoiled exactly if the first piece that says anything after it was written cannot
be read. -/
theorem request_eq_value_iff [Host] {s : Session} {payload : Json.Members} {fault : ValueFault} :
    (∃ t, s.request payload = some (.error (.value fault), t)) ↔ ∃ child,
      s.child.exit = none ∧ s.child.write (requestLine payload (s.last + 1)) = .ok child ∧
      Garbled child fault := by
  constructor
  · rintro ⟨t, h⟩
    obtain ⟨f, hf⟩ | ⟨child, heard, hexit, hwrite, hhear, hanswer⟩ := request_cases h
    · cases hf
    · obtain rfl := answerTo_eq_value_iff.mp hanswer.symm
      exact ⟨child, hexit, hwrite, hear?_fault_iff.mp ⟨t, hhear⟩⟩
  · rintro ⟨child, hexit, hwrite, hgarbled⟩
    obtain ⟨t, hhear⟩ :=
      (hear?_fault_iff (s := { s with child, last := s.last + 1 })).mpr hgarbled
    exact ⟨t, by simp [request, hexit, hwrite, hhear, answerTo]⟩

/-- A request is never answered exactly if the process is silent after it was written. -/
theorem request_eq_none_iff [Host] {s : Session} {payload : Json.Members} :
    s.request payload = none ↔ ∃ child, s.child.exit = none ∧
      s.child.write (requestLine payload (s.last + 1)) = .ok child ∧ Silent child := by
  unfold request
  cases hexit : s.child.exit with
  | some code => simp
  | none =>
    cases hwrite : s.child.write (requestLine payload (s.last + 1)) with
    | error reason => simp [hwrite]
    | ok child => simp [hwrite, hear?_eq_none_iff]

theorem greeting?_eq_value_iff [Host] {s : Session} {timeout : Option Number} {fault : ValueFault}
    (htime : timeout.any Number.isNonpositive = false) :
    (∃ t, s.greeting? timeout = some (.error (.inr fault), t)) ↔ Garbled s.child fault := by
  rw [← hear?_fault_iff]
  unfold greeting?
  rw [htime]
  cases hhear : s.hear? with
  | none => cases timeout <;> simp
  | some r =>
    obtain ⟨heard, t⟩ := r
    cases heard <;> simp [eq_comm]

/-- What a session comes to that was greeted: it is ready, or its greeting is a fault of reading,
or it is refused and closed. -/
theorem connect_cases [Host] {p : Child} {timeout : Option Number} {outcome : Except Fault Unit}
    {s : Session} {noted : List Notice} (h : connect p timeout = some (outcome, s, noted)) :
    (outcome = .ok () ∧ noted = []) ∨
    (∃ fault, (ofChild p).greeting? timeout = some (.error (.inr fault), s) ∧
      outcome = .error (.value fault) ∧ noted = []) ∨
    ∃ (fault : BridgeFault) (u : Session), outcome = .error (.bridge fault) ∧
      (s, noted) = u.close := by
  simp only [connect, Option.map_eq_some_iff] at h
  obtain ⟨⟨greeting, t⟩, hgreet, h⟩ := h
  cases greeting with
  | error fault =>
    cases fault with
    | inl fault =>
      simp only [refused, Prod.mk.injEq] at h
      obtain ⟨rfl, rfl, rfl⟩ := h
      exact .inr (.inr ⟨_, t, rfl, rfl⟩)
    | inr fault =>
      simp only [Prod.mk.injEq] at h
      obtain ⟨rfl, rfl, rfl⟩ := h
      exact .inr (.inl ⟨fault, hgreet, rfl, rfl⟩)
  | ok members =>
    dsimp only at h
    split at h
    · simp only [Prod.mk.injEq] at h
      exact .inl ⟨h.1.symm, h.2.2.symm⟩
    · simp only [refused, Prod.mk.injEq] at h
      obtain ⟨rfl, rfl, rfl⟩ := h
      exact .inr (.inr ⟨_, _, rfl, rfl⟩)

theorem ofProcess_of_connect [Host] {p : Child} {timeout : Option Number} {fault : Fault}
    {s : Session} {noted : List Notice} (h : connect p timeout = some (.error fault, s, noted)) :
    fault.OfProcess := by
  obtain ⟨hok, -⟩ | ⟨f, -, hf, -⟩ | ⟨f, u, hf, -⟩ := connect_cases h
  · cases hok
  · exact .inr ⟨f, Except.error.inj hf⟩
  · exact .inl ⟨f, Except.error.inj hf⟩

/-- A session with time to be greeted is spoiled exactly if the first piece that says anything
cannot be read. -/
theorem connect_eq_value_iff [Host] {p : Child} {timeout : Option Number} {fault : ValueFault}
    (htime : timeout.any Number.isNonpositive = false) :
    (∃ s noted, connect p timeout = some (.error (.value fault), s, noted)) ↔
      Garbled p fault := by
  have hgreeting : (∃ t, (ofChild p).greeting? timeout = some (.error (.inr fault), t)) ↔
      Garbled p fault := greeting?_eq_value_iff htime
  rw [← hgreeting]
  constructor
  · rintro ⟨s, noted, h⟩
    obtain ⟨hok, -⟩ | ⟨f, hgreet, hf, -⟩ | ⟨f, u, hf, -⟩ := connect_cases h
    · cases hok
    · obtain rfl := Fault.value.inj (Except.error.inj hf)
      exact ⟨s, hgreet⟩
    · cases hf
  · rintro ⟨t, hgreet⟩
    exact ⟨t, [], by rw [connect, hgreet]; rfl⟩

/-- A session is never greeted exactly if there is no limit to waiting and the process is
silent. -/
theorem connect_eq_none_iff [Host] {p : Child} {timeout : Option Number}
    (htime : timeout.any Number.isNonpositive = false) :
    connect p timeout = none ↔ timeout = none ∧ Silent p := by
  have hsilent : (ofChild p).hear? = none ↔ Silent p := hear?_eq_none_iff
  rw [connect, Option.map_eq_none_iff, ← hsilent]
  unfold greeting?
  rw [htime]
  cases (ofChild p).hear? with
  | none => cases timeout <;> simp
  | some r =>
    obtain ⟨heard, t⟩ := r
    cases heard <;> simp

theorem stubborn_of_close {s : Session} {n : Notice} (h : n ∈ s.close.2) :
    ∃ pid, n = .stubborn pid := by
  unfold close at h
  split at h
  · dsimp only at h
    split at h
    · exact ⟨_, List.mem_singleton.mp h⟩
    · cases h
  · cases h

theorem stubborn_of_connect [Host] {p : Child} {timeout : Option Number}
    {outcome : Except Fault Unit}
    {s : Session} {noted : List Notice} (h : connect p timeout = some (outcome, s, noted))
    {n : Notice} (hn : n ∈ noted) : ∃ pid, n = .stubborn pid := by
  obtain ⟨-, rfl⟩ | ⟨f, -, -, rfl⟩ | ⟨f, u, -, hclose⟩ := connect_cases h
  · cases hn
  · cases hn
  · obtain rfl : noted = u.close.2 := congrArg Prod.snd hclose
    exact stubborn_of_close hn

end Session

namespace Child

/-- The first line that a process writes at its start is the first one to be read. -/
theorem unread_start {b : Behaviour} {line rest : Text} (houtput : b.output = line ++ '\n' :: rest)
    (hline : '\n' ∉ line) (hexit : b.exit = none) :
    (start b).unread = line :: (Text.lines rest).dropLast := by
  rw [start, houtput, hexit]
  exact Session.unread_emit_line rest b.errors rfl rfl rfl hline

end Child

namespace Site

/-- The settings leave time to be greeted. -/
theorem timeout_positive (settings : Settings) :
    settings.timeout.any Number.isNonpositive = false := by
  have h := settings.timeout_ok
  cases ht : settings.timeout with
  | none => rfl
  | some t => simpa [ht] using h

/-- The process of the next session greets with output that cannot be read. -/
def GreetsGarbled [Host] (site : Site) (w : World) (fault : ValueFault) : Prop :=
  ∃ settings behaviour, site.settings? = .ok settings ∧
    site.launch (w.attempts .mermaid) = .ok behaviour ∧
    Session.Garbled (Child.start behaviour) fault

/-- The process of the next session does not greet and does not end, and waiting for it has no
limit. -/
def GreetsNever [Host] (site : Site) (w : World) : Prop :=
  ∃ settings behaviour, site.settings? = .ok settings ∧ settings.timeout = none ∧
    site.launch (w.attempts .mermaid) = .ok behaviour ∧ Session.Silent (Child.start behaviour)

/-- A world in which another session was to be started. -/
def spawned (settings : Settings) (w : World) : World :=
  { w with spawns := w.spawns ++ [⟨.mermaid, settings.executable, settings.packageDir⟩] }

def joined (settings : Settings) (session : Session) (w : World) : World :=
  { spawned settings w with sessions := w.sessions ++ [session] }

/-- What a start comes to, with what is noted and the world behind it. -/
inductive Starts [Host] (site : Site) (w : World) : Startup × List Notice × World → Prop where
  /-- The settings are not valid. -/
  | unset {fault : BridgeFault} (hsettings : site.settings? = .error fault) :
      Starts site w (.failed (.bridge fault), [], w)
  /-- The program cannot be run. -/
  | refused {settings : Settings} {reason : Text} (hsettings : site.settings? = .ok settings)
      (hlaunch : site.launch (w.attempts .mermaid) = .error reason) :
      Starts site w (.failed (.bridge (.cannotRun settings.executable reason)),
        [.starting settings.executable], spawned settings w)
  /-- The session waits to be greeted. -/
  | pending {settings : Settings} {behaviour : Behaviour}
      (hsettings : site.settings? = .ok settings)
      (hlaunch : site.launch (w.attempts .mermaid) = .ok behaviour)
      (hconnect : Session.connect (Child.start behaviour) settings.timeout = none) :
      Starts site w (.pending, [.starting settings.executable],
        joined settings (.ofChild (Child.start behaviour)) w)
  | failed {settings : Settings} {behaviour : Behaviour} {fault : Fault} {session : Session}
      {noted : List Notice} (hsettings : site.settings? = .ok settings)
      (hlaunch : site.launch (w.attempts .mermaid) = .ok behaviour)
      (hconnect : Session.connect (Child.start behaviour) settings.timeout =
        some (.error fault, session, noted)) :
      Starts site w (.failed fault, .starting settings.executable :: noted,
        joined settings session w)
  | live {settings : Settings} {behaviour : Behaviour} {session : Session}
      {noted : List Notice} (hsettings : site.settings? = .ok settings)
      (hlaunch : site.launch (w.attempts .mermaid) = .ok behaviour)
      (hconnect : Session.connect (Child.start behaviour) settings.timeout =
        some (.ok (), session, noted)) :
      Starts site w (.live w.sessions.length, .starting settings.executable :: noted,
        joined settings session w)

section Start

variable {site : Site} {w : World}

theorem starts [Host] (site : Site) (w : World) : site.Starts w (site.start w) := by
  unfold start
  cases hsettings : site.settings? with
  | error fault => exact .unset hsettings
  | ok settings =>
    simp only [startSession]
    cases hlaunch : site.launch (w.attempts .mermaid) with
    | error reason => exact .refused hsettings hlaunch
    | ok behaviour =>
      dsimp only
      cases hconnect : Session.connect (Child.start behaviour) settings.timeout with
      | none => exact .pending hsettings hlaunch hconnect
      | some r =>
        obtain ⟨outcome, session, noted⟩ := r
        cases outcome with
        | ok u => exact .live hsettings hlaunch hconnect
        | error fault => exact .failed hsettings hlaunch hconnect

theorem ofProcess_of_start [Host] {fault : Fault} (h : (site.start w).1 = .failed fault) :
    fault.OfProcess := by
  have hstarts := site.starts w
  generalize site.start w = r at h hstarts
  cases hstarts with
  | unset hsettings => exact .inl ⟨_, (Startup.failed.inj h).symm⟩
  | refused hsettings hlaunch => exact .inl ⟨_, (Startup.failed.inj h).symm⟩
  | pending hsettings hlaunch hconnect => cases h
  | failed hsettings hlaunch hconnect =>
    obtain rfl := Startup.failed.inj h
    exact Session.ofProcess_of_connect hconnect
  | live hsettings hlaunch hconnect => cases h

/-- The start of a session is spoiled exactly if its greeting cannot be read. -/
theorem start_eq_value_iff [Host] {fault : ValueFault} :
    (site.start w).1 = .failed (.value fault) ↔ site.GreetsGarbled w fault := by
  constructor
  · intro h
    have hstarts := site.starts w
    generalize site.start w = r at h hstarts
    cases hstarts with
    | failed hsettings hlaunch hconnect =>
      obtain rfl := Startup.failed.inj h
      exact ⟨_, _, hsettings, hlaunch,
        (Session.connect_eq_value_iff (timeout_positive _)).mp ⟨_, _, hconnect⟩⟩
    | _ => cases h
  · rintro ⟨settings, behaviour, hsettings, hlaunch, hgarbled⟩
    obtain ⟨session, noted, hconnect⟩ :=
      (Session.connect_eq_value_iff (timeout_positive settings)).mpr hgarbled
    simp [start, startSession, hsettings, hlaunch, hconnect]

theorem start_eq_pending_iff [Host] : (site.start w).1 = .pending ↔ site.GreetsNever w := by
  constructor
  · intro h
    have hstarts := site.starts w
    generalize site.start w = r at h hstarts
    cases hstarts with
    | pending hsettings hlaunch hconnect =>
      obtain ⟨htimeout, hsilent⟩ :=
        (Session.connect_eq_none_iff (timeout_positive _)).mp hconnect
      exact ⟨_, _, hsettings, htimeout, hlaunch, hsilent⟩
    | _ => cases h
  · rintro ⟨settings, behaviour, hsettings, htimeout, hlaunch, hsilent⟩
    have hconnect := (Session.connect_eq_none_iff (timeout_positive settings)).mpr
      ⟨htimeout, hsilent⟩
    simp [start, startSession, hsettings, hlaunch, hconnect]

/-- A session that is up after a start is among those whose processes were started. -/
theorem lt_of_start [Host] {n : Nat} (h : (site.start w).1 = .live n) :
    n < (site.start w).2.2.sessions.length := by
  have hstarts := site.starts w
  generalize site.start w = r at h hstarts
  cases hstarts with
  | live hsettings hlaunch hconnect =>
    obtain rfl := Startup.live.inj h
    simp [joined]
  | _ => cases h

/-- A start notes that it begins, and perhaps that the process had to be killed. -/
theorem notice_of_start [Host] {n : Notice} (h : n ∈ (site.start w).2.1) :
    (∃ executable, n = .starting executable) ∨ ∃ pid, n = .stubborn pid := by
  have hconnected : ∀ {executable p timeout outcome session noted},
      Session.connect p timeout = some (outcome, session, noted) →
      n ∈ Notice.starting executable :: noted →
      (∃ executable, n = .starting executable) ∨ ∃ pid, n = .stubborn pid := by
    intro executable p timeout outcome session noted hconnect hmem
    obtain rfl | hmem := List.mem_cons.mp hmem
    · exact .inl ⟨_, rfl⟩
    · exact .inr (Session.stubborn_of_connect hconnect hmem)
  have hstarts := site.starts w
  generalize site.start w = r at h hstarts
  cases hstarts with
  | unset hsettings => cases h
  | refused hsettings hlaunch => exact .inl ⟨_, List.mem_singleton.mp h⟩
  | pending hsettings hlaunch hconnect => exact .inl ⟨_, List.mem_singleton.mp h⟩
  | failed hsettings hlaunch hconnect => exact hconnected hconnect h
  | live hsettings hlaunch hconnect => exact hconnected hconnect h

end Start

theorem request_eq_none_iff [Host] {site : Site} {n : Nat} {payload : Json.Members} {w : World}
    {session : Session} (h : w.sessions[n]? = some session) :
    site.keeper.request n payload w = none ↔ session.request payload = none := by
  show request n payload w = _ ↔ _
  simp [request, h]

theorem request_eq_some_iff [Host] {site : Site} {n : Nat} {payload : Json.Members} {w t : World}
    {answer : Except Fault Json.Members} :
    site.keeper.request n payload w = some (answer, t) ↔ ∃ session session',
      w.sessions[n]? = some session ∧ session.request payload = some (answer, session') ∧
      t = { w with sessions := w.sessions.set n session' } := by
  show request n payload w = _ ↔ _
  unfold request
  cases w.sessions[n]? with
  | none => simp
  | some session =>
    simp only [Option.map_eq_some_iff, Prod.mk.injEq, Option.some.injEq, exists_and_left,
      exists_eq_left']
    constructor
    · rintro ⟨⟨found, session'⟩, hrequest, rfl, rfl⟩
      exact ⟨session', hrequest, rfl⟩
    · rintro ⟨session', hrequest, rfl⟩
      exact ⟨(answer, session'), hrequest, rfl, rfl⟩

end Site

end FragmentLint
