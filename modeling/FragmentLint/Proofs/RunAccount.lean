import FragmentLint.Proofs.DiagramBreakdowns
import FragmentLint.Proofs.RequestLines
import FragmentLint.Proofs.Tasks

/-!
# The account of a run

The two parsers share a world, but neither touches what the other one leaves in it. For diagrams
there is at most one attempt to start a session, made by the first diagram that is asked about, and
the session that comes of it is asked about the diagrams one after another. For formulas there is
one attempt for each, with the formula and the options as its input. Each side is kept as an
account of the tasks that are done, which every task continues and the closing of the session
leaves as it is.
-/
namespace FragmentLint

namespace World

/-- As far as formulas go, two worlds are the same. -/
structure SameScripts (w v : World) : Prop where
  spawns : v.spawns.filter (·.family = .math) = w.spawns.filter (·.family = .math)
  inputs : v.inputs = w.inputs

/-- As far as diagrams go, two worlds are the same. -/
structure SameSessions (w v : World) : Prop where
  attempts : v.attempts .mermaid = w.attempts .mermaid
  sessions : v.sessions = w.sessions

theorem sameScripts_spawned (settings : Settings) (w : World) :
    SameScripts w (Site.spawned settings w) :=
  ⟨by simp [Site.spawned], rfl⟩

theorem attempts_spawned (settings : Settings) (w : World) :
    (Site.spawned settings w).attempts .mermaid = w.attempts .mermaid + 1 := by
  simp [Site.spawned, World.attempts]

end World

namespace Diagram

/-- What the diagrams that were asked about have made of the shared session, which nothing had been
started for before. -/
inductive Served [Host] (site : Site) : List Text → Shared World → Prop where
  | unasked {s : Shared World} (hmemo : s.memo = none) (hattempts : s.world.attempts .mermaid = 0)
      (hsessions : s.world.sessions = []) : Served site [] s
  /-- The settings are not valid. -/
  | unset {codes : List Text} {s : Shared World} {fault : BridgeFault} (hne : codes ≠ [])
      (hsettings : site.settings? = .error fault)
      (hmemo : s.memo = some ⟨s.loop, .failed (.bridge fault)⟩)
      (hattempts : s.world.attempts .mermaid = 0) (hsessions : s.world.sessions = []) :
      Served site codes s
  /-- The program could not be run. -/
  | refused {settings : Settings} {codes : List Text} {s : Shared World} {reason : Text}
      {fault : BridgeFault} (hne : codes ≠ []) (hsettings : site.settings? = .ok settings)
      (hlaunch : site.launch 0 = .error reason)
      (hmemo : s.memo = some ⟨s.loop, .failed (.bridge fault)⟩)
      (hattempts : s.world.attempts .mermaid = 1) (hsessions : s.world.sessions = []) :
      Served site codes s
  /-- The session turned out not to be usable. -/
  | failed {settings : Settings} {codes : List Text} {s : Shared World} {behaviour : Behaviour}
      {fault : Fault} {session : Session} {noted : List Notice} (hne : codes ≠ [])
      (hsettings : site.settings? = .ok settings) (hlaunch : site.launch 0 = .ok behaviour)
      (hconnect : Session.connect (Child.start behaviour) settings.timeout =
        some (.error fault, session, noted))
      (hmemo : s.memo = some ⟨s.loop, .failed fault⟩)
      (hattempts : s.world.attempts .mermaid = 1) (hsessions : s.world.sessions = [session]) :
      Served site codes s
  /-- The session was asked about all of them. -/
  | live {settings : Settings} {codes : List Text} {s : Shared World} {behaviour : Behaviour}
      {session now : Session} {noted : List Notice} {answers : List (Except Fault Json.Members)}
      (hne : codes ≠ []) (hsettings : site.settings? = .ok settings)
      (hlaunch : site.launch 0 = .ok behaviour)
      (hconnect : Session.connect (Child.start behaviour) settings.timeout =
        some (.ok (), session, noted))
      (hmemo : s.memo = some ⟨s.loop, .live 0⟩)
      (hattempts : s.world.attempts .mermaid = 1)
      (hrequests : session.requests (codes.map payload) = some (answers, now))
      (hsessions : s.world.sessions = [now]) : Served site codes s

section Served

variable {site : Site} {codes : List Text} {s : Shared World}

/-- Where no diagram was asked about, nothing has been started. -/
theorem Served.idle [Host] (h : Served site [] s) :
    s.memo = none ∧ s.world.attempts .mermaid = 0 ∧ s.world.sessions = [] := by
  cases h with
  | unasked hmemo hattempts hsessions => exact ⟨hmemo, hattempts, hsessions⟩
  | unset hne | refused hne | failed hne | live hne => exact absurd rfl hne

theorem Served.framed [Host] {w : World} (h : Served site codes s)
    (hsame : World.SameSessions s.world w) : Served site codes { s with world := w } := by
  obtain ⟨hattempts', hsessions'⟩ := hsame
  cases h with
  | unasked hmemo hattempts hsessions =>
    exact .unasked hmemo (hattempts'.trans hattempts) (hsessions'.trans hsessions)
  | unset hne hsettings hmemo hattempts hsessions =>
    exact .unset hne hsettings hmemo (hattempts'.trans hattempts) (hsessions'.trans hsessions)
  | refused hne hsettings hlaunch hmemo hattempts hsessions =>
    exact .refused hne hsettings hlaunch hmemo (hattempts'.trans hattempts)
      (hsessions'.trans hsessions)
  | failed hne hsettings hlaunch hconnect hmemo hattempts hsessions =>
    exact .failed hne hsettings hlaunch hconnect hmemo (hattempts'.trans hattempts)
      (hsessions'.trans hsessions)
  | live hne hsettings hlaunch hconnect hmemo hattempts hrequests hsessions =>
    exact .live hne hsettings hlaunch hconnect hmemo (hattempts'.trans hattempts) hrequests
      (hsessions'.trans hsessions)

/-- What a request to the only session makes of the world. -/
theorem request_of_singleton [Host] {payload : Json.Members} {w v : World} {session : Session}
    {answer : Except Fault Json.Members} (hsessions : w.sessions = [session])
    (h : site.keeper.request 0 payload w = some (answer, v)) :
    ∃ now, session.request payload = some (answer, now) ∧ v = { w with sessions := [now] } := by
  obtain ⟨found, now, hfound, hrequest, rfl⟩ := Site.request_eq_some_iff.mp h
  rw [hsessions] at hfound
  obtain rfl := Option.some.inj hfound
  exact ⟨now, hrequest, by rw [hsessions]; rfl⟩

/-- Where no start-up is kept, the next diagram makes one. -/
theorem session_of_fresh [Host] (site : Site) (hmemo : s.memo = none) :
    (s.session site.keeper).1 = Shared.outcome? (site.start s.world).1 ∧
      (s.session site.keeper).2.2 = { s with
        memo := some ⟨s.loop, (site.start s.world).1⟩
        world := (site.start s.world).2.2 } := by
  have hnone : s.current? = none := by simp [Shared.current?, hmemo]
  have hcleared : Shared.cleared site.keeper s = s.world := by simp [Shared.cleared, hmemo]
  obtain ⟨hstartup, hstate⟩ := Shared.begin_of_none (k := site.keeper) hnone
  rw [hcleared] at hstartup hstate
  exact ⟨congrArg Shared.outcome? hstartup, hstate⟩

/-- A start-up that is kept is found by the next diagram. -/
theorem session_of_kept [Host] {startup : Startup} (hmemo : s.memo = some ⟨s.loop, startup⟩) :
    s.session site.keeper = (Shared.outcome? startup, [], s) := by
  exact Shared.session_of_some (Shared.current?_eq_some_iff.mpr hmemo)

/-- A start-up that failed is found by every later diagram, which leaves all as it is. -/
theorem eq_of_parse_of_failed [Host] {fault : Fault} (hmemo : s.memo = some ⟨s.loop, .failed fault⟩)
    {code : Text} {outcome : Except ParseFault Unit} {noted : List Notice} {t : Shared World}
    (h : parse site.keeper code s = some (outcome, noted, t)) : t = s := by
  obtain ⟨-, hcases⟩ := parse_cases h
  rw [session_of_kept hmemo] at hcases
  obtain ⟨found, -, -, rfl⟩ | ⟨n, answer, world, hup, -⟩ := hcases
  · rfl
  · cases hup

/-- The first diagram starts the session and is the first to be asked about. -/
theorem served_of_start [Host] (hmemo : s.memo = none)
    (hattempts : s.world.attempts .mermaid = 0) (hsessions : s.world.sessions = []) {code : Text}
    {outcome : Except ParseFault Unit} {noted : List Notice} {t : Shared World}
    (h : parse site.keeper code s = some (outcome, noted, t)) :
    Served site [code] t ∧ World.SameScripts s.world t.world := by
  obtain ⟨hfirst, hsecond⟩ := session_of_fresh site hmemo
  obtain ⟨-, hcases⟩ := parse_cases h
  rw [hfirst, hsecond] at hcases
  have hscripts : ∀ settings, World.SameScripts s.world (Site.spawned settings s.world) :=
    fun settings => World.sameScripts_spawned settings s.world
  have hone : ∀ settings, (Site.spawned settings s.world).attempts .mermaid = 1 := by
    intro settings
    rw [World.attempts_spawned, hattempts]
  have hjoined : ∀ settings session,
      (Site.joined settings session s.world).sessions = [session] := by
    simp [Site.joined, hsessions]
  -- All that a start can do, and what the diagram that made it meets then.
  have hstarts := site.starts s.world
  generalize site.start s.world = r at hcases hstarts
  cases hstarts with
  | unset hsettings =>
    obtain ⟨fault, hfault, -, rfl⟩ | ⟨n, answer, world, hup, -⟩ := hcases
    · exact ⟨.unset (by simp) hsettings rfl hattempts hsessions, rfl, rfl⟩
    · cases hup
  | @refused settings _ hsettings hlaunch =>
    rw [hattempts] at hlaunch
    obtain ⟨fault, hfault, -, rfl⟩ | ⟨n, answer, world, hup, -⟩ := hcases
    · exact ⟨.refused (by simp) hsettings hlaunch rfl (hone _) hsessions, hscripts _⟩
    · cases hup
  | pending hsettings hlaunch hconnect =>
    obtain ⟨fault, hfault, -⟩ | ⟨n, answer, world, hup, -⟩ := hcases
    · cases hfault
    · cases hup
  | @failed settings _ _ _ _ hsettings hlaunch hconnect =>
    rw [hattempts] at hlaunch
    obtain ⟨found, hfault, -, rfl⟩ | ⟨n, answer, world, hup, -⟩ := hcases
    · exact ⟨.failed (by simp) hsettings hlaunch hconnect rfl (hone _) (hjoined _ _),
        (hscripts settings).spawns, (hscripts settings).inputs⟩
    · cases hup
  | @live settings _ _ _ hsettings hlaunch hconnect =>
    rw [hattempts] at hlaunch
    obtain ⟨found, hfault, -⟩ | ⟨n, answer, world, hup, hrequest, rfl, -⟩ := hcases
    · cases hfault
    · obtain rfl : s.world.sessions.length = n := Except.ok.inj (Option.some.inj hup)
      rw [hsessions] at hrequest
      obtain ⟨now, hasked, rfl⟩ := request_of_singleton (hjoined _ _) hrequest
      have hup : s.world.sessions.length = 0 := by rw [hsessions]; rfl
      rw [hup]
      exact ⟨.live (by simp) hsettings hlaunch hconnect rfl (hone _)
        (Session.requests_singleton hasked) rfl, (hscripts settings).spawns,
        (hscripts settings).inputs⟩

/-- Every diagram continues the account of those in front of it. -/
theorem Served.check [Host] (h : Served site codes s) {code : Text}
    {answer : Checked (Shared World)} (hcheck : check site.keeper code s = some answer) :
    Served site (codes ++ [code]) answer.state ∧
      World.SameScripts s.world answer.state.world := by
  obtain ⟨outcome, noted, t, hparse, rfl⟩ := check_eq_some_iff.mp hcheck
  dsimp only
  cases h with
  | unasked hmemo hattempts hsessions =>
    exact served_of_start hmemo hattempts hsessions hparse
  | unset hne hsettings hmemo hattempts hsessions =>
    obtain rfl := eq_of_parse_of_failed hmemo hparse
    exact ⟨.unset (by simp) hsettings hmemo hattempts hsessions, rfl, rfl⟩
  | refused hne hsettings hlaunch hmemo hattempts hsessions =>
    obtain rfl := eq_of_parse_of_failed hmemo hparse
    exact ⟨.refused (by simp) hsettings hlaunch hmemo hattempts hsessions, rfl, rfl⟩
  | failed hne hsettings hlaunch hconnect hmemo hattempts hsessions =>
    obtain rfl := eq_of_parse_of_failed hmemo hparse
    exact ⟨.failed (by simp) hsettings hlaunch hconnect hmemo hattempts hsessions, rfl, rfl⟩
  | live hne hsettings hlaunch hconnect hmemo hattempts hrequests hsessions =>
    obtain ⟨-, hcases⟩ := parse_cases hparse
    rw [session_of_kept hmemo] at hcases
    obtain ⟨fault, hfault, -⟩ | ⟨n, answer, world, hup, hrequest, rfl, -⟩ := hcases
    · cases hfault
    · obtain rfl : 0 = n := Except.ok.inj (Option.some.inj hup)
      obtain ⟨now, hasked, rfl⟩ := request_of_singleton hsessions hrequest
      have hall := Session.requests_append hrequests (Session.requests_singleton hasked)
      rw [← List.map_singleton, ← List.map_append] at hall
      exact ⟨.live (by simp) hsettings hlaunch hconnect hmemo hattempts hall rfl, rfl, rfl⟩

end Served

/-- What the diagrams that were asked about have made of a world, once the session is closed. -/
inductive Ended [Host] (site : Site) : List Text → World → Prop where
  | unasked {w : World} (hattempts : w.attempts .mermaid = 0) (hsessions : w.sessions = []) :
      Ended site [] w
  | unset {codes : List Text} {w : World} {fault : BridgeFault} (hne : codes ≠ [])
      (hsettings : site.settings? = .error fault) (hattempts : w.attempts .mermaid = 0)
      (hsessions : w.sessions = []) : Ended site codes w
  | refused {settings : Settings} {codes : List Text} {w : World} {reason : Text} (hne : codes ≠ [])
      (hsettings : site.settings? = .ok settings) (hlaunch : site.launch 0 = .error reason)
      (hattempts : w.attempts .mermaid = 1) (hsessions : w.sessions = []) : Ended site codes w
  | failed {settings : Settings} {codes : List Text} {w : World} {behaviour : Behaviour}
      {fault : Fault} {session : Session} {noted : List Notice} (hne : codes ≠ [])
      (hsettings : site.settings? = .ok settings) (hlaunch : site.launch 0 = .ok behaviour)
      (hconnect : Session.connect (Child.start behaviour) settings.timeout =
        some (.error fault, session, noted))
      (hattempts : w.attempts .mermaid = 1) (hsessions : w.sessions = [session]) :
      Ended site codes w
  | live {settings : Settings} {codes : List Text} {w : World} {behaviour : Behaviour}
      {session now : Session} {noted : List Notice} {answers : List (Except Fault Json.Members)}
      (hne : codes ≠ []) (hsettings : site.settings? = .ok settings)
      (hlaunch : site.launch 0 = .ok behaviour)
      (hconnect : Session.connect (Child.start behaviour) settings.timeout =
        some (.ok (), session, noted))
      (hattempts : w.attempts .mermaid = 1)
      (hrequests : session.requests (codes.map payload) = some (answers, now))
      (hsessions : w.sessions = [now.close.1]) : Ended site codes w

/-- Closing ends the session, if one is up, and nothing else. -/
theorem Served.close [Host] {site : Site} {codes : List Text} {s : Shared World}
    (h : Served site codes s) :
    Ended site codes (s.close site.keeper).2.2.world ∧
      World.SameScripts s.world (s.close site.keeper).2.2.world := by
  cases h with
  | unasked hmemo hattempts hsessions =>
    simp only [Shared.close, hmemo]
    exact ⟨.unasked hattempts hsessions, rfl, rfl⟩
  | unset hne hsettings hmemo hattempts hsessions =>
    simp only [Shared.close, hmemo, if_true]
    exact ⟨.unset hne hsettings hattempts hsessions, rfl, rfl⟩
  | refused hne hsettings hlaunch hmemo hattempts hsessions =>
    simp only [Shared.close, hmemo, if_true]
    exact ⟨.refused hne hsettings hlaunch hattempts hsessions, rfl, rfl⟩
  | @failed _ _ _ behaviour fault _ _ hne hsettings hlaunch hconnect hmemo hattempts hsessions =>
    cases fault with
    | bridge fault =>
      simp only [Shared.close, hmemo, if_true]
      exact ⟨.failed hne hsettings hlaunch hconnect hattempts hsessions, rfl, rfl⟩
    | _ =>
      simp only [Shared.close, hmemo, if_true]
      exact ⟨.failed hne hsettings hlaunch hconnect hattempts hsessions, rfl, rfl⟩
  | live hne hsettings hlaunch hconnect hmemo hattempts hrequests hsessions =>
    simp only [Shared.close, hmemo, if_true, Site.keeper, Site.close, hsessions]
    exact ⟨.live hne hsettings hlaunch hconnect hattempts hrequests rfl, rfl, rfl⟩

/-- The lines that ask about codes, numbered from one. -/
def lines (codes : List Text) : List Text :=
  Session.requestLines 1 (codes.map payload)

section Ended

variable {site : Site} {codes : List Text} {w : World}

/-- Where no diagram was asked about, nothing was started. -/
theorem Ended.idle [Host] (h : Ended site [] w) : w.attempts .mermaid = 0 ∧ w.sessions = [] := by
  cases h with
  | unasked hattempts hsessions => exact ⟨hattempts, hsessions⟩
  | unset hne | refused hne | failed hne | live hne => exact absurd rfl hne

theorem Ended.attempts [Host] {settings : Settings} (h : Ended site codes w)
    (hsettings : site.settings? = .ok settings) :
    w.attempts .mermaid = if codes = [] then 0 else 1 := by
  cases h with
  | unasked hattempts hsessions => rw [hattempts, if_pos rfl]
  | unset hne hunset hattempts hsessions =>
    rw [hsettings] at hunset
    cases hunset
  | refused hne hset hlaunch hattempts hsessions => rw [hattempts, if_neg hne]
  | failed hne hset hlaunch hconnect hattempts hsessions => rw [hattempts, if_neg hne]
  | live hne hset hlaunch hconnect hattempts hrequests hsessions => rw [hattempts, if_neg hne]

/-- Nothing has been written, or it was written by the requests to a session that was ready. -/
theorem Ended.written_cases [Host] (h : Ended site codes w) :
    (w.written = [] ∧ ∀ settings behaviour session noted, codes ≠ [] →
      site.settings? = .ok settings → site.launch 0 = .ok behaviour →
      Session.connect (Child.start behaviour) settings.timeout ≠ some (.ok (), session, noted)) ∨
    ∃ (behaviour : Behaviour) (session now : Session) (answers : List (Except Fault Json.Members)),
      site.launch 0 = .ok behaviour ∧ session.last = 0 ∧
      session.child.written = [] ∧ session.child.behaviour = behaviour ∧
      session.child.exit = behaviour.exit ∧
      session.requests (codes.map payload) = some (answers, now) ∧
      w.written = now.child.written := by
  cases h with
  | unasked hattempts hsessions =>
    exact .inl ⟨by simp [World.written, hsessions], fun _ _ _ _ hne => absurd rfl hne⟩
  | unset hne hsettings hattempts hsessions =>
    refine .inl ⟨by simp [World.written, hsessions], fun _ _ _ _ _ hset => ?_⟩
    rw [hsettings] at hset
    cases hset
  | refused hne hsettings hlaunch hattempts hsessions =>
    refine .inl ⟨by simp [World.written, hsessions], fun _ _ _ _ _ _ hlaunched => ?_⟩
    rw [hlaunch] at hlaunched
    cases hlaunched
  | @failed _ _ _ _ _ session _ hne hsettings hlaunch hconnect hattempts hsessions =>
    have hwritten : session.child.written = [] :=
      (Session.greeted_of_connect hconnect).written.trans (Child.emit_written _ _ _ _)
    refine .inl ⟨by simp [World.written, hsessions, hwritten], fun _ _ _ _ _ hset hlaunched => ?_⟩
    obtain rfl := Except.ok.inj (hsettings.symm.trans hset)
    obtain rfl := Except.ok.inj (hlaunch.symm.trans hlaunched)
    rw [hconnect]
    simp
  | @live _ _ _ behaviour session now _ answers hne hsettings hlaunch hconnect hattempts hrequests
      hsessions =>
    obtain ⟨hlast, hwritten, hready, -⟩ := Session.greeted_of_connect hconnect
    obtain ⟨hbehaviour, hexit⟩ := hready rfl
    refine .inr ⟨behaviour, session, now, answers, hlaunch, hlast, ?_, ?_, ?_, hrequests, ?_⟩
    · exact hwritten.trans (Child.emit_written _ _ _ _)
    · exact hbehaviour.trans (Child.behaviour_emit rfl _ _ _)
    · exact hexit.trans (Child.exit_emit rfl _ _ _)
    · simp [World.written, hsessions, Session.written_close]

/-- Whatever the process does, some of the lines were written, in their order. -/
theorem Ended.written_sublist [Host] (h : Ended site codes w) :
    w.written.Sublist (lines codes) := by
  obtain ⟨hnone, -⟩ | ⟨behaviour, session, now, answers, -, hlast, hwritten, -, -, hrequests,
    hnow⟩ := h.written_cases
  · rw [hnone]
    exact List.nil_sublist _
  · obtain ⟨sent, hsent, hsublist⟩ := Session.written_sublist hrequests
    rw [hlast] at hsublist
    rw [hnow, hsent, hwritten]
    exact hsublist

theorem Ended.written_take [Host] (h : Ended site codes w)
    (hwrites : ∀ behaviour, site.launch 0 = .ok behaviour →
      behaviour.TakesEach [] (lines codes) ∨ behaviour.RefusesEach [] (lines codes)) :
    ∃ k ≤ codes.length, w.written = (lines codes).take k := by
  obtain ⟨hnone, -⟩ | ⟨behaviour, session, now, answers, hlaunch, hlast, hwritten, hbehaviour, -,
    hrequests, hnow⟩ := h.written_cases
  · exact ⟨0, Nat.zero_le _, hnone⟩
  · obtain htakes | hrefuses := hwrites behaviour hlaunch
    · obtain ⟨k, hk, hsent⟩ := Session.written_of_takesEach
        (by rw [hbehaviour, hwritten, hlast]; exact htakes) hrequests
      rw [hwritten, hlast] at hsent
      exact ⟨k, by simpa using hk, hnow.trans hsent⟩
    · have hsent := Session.written_of_refusesEach
        (by rw [hbehaviour, hwritten, hlast]; exact hrefuses) hrequests
      exact ⟨0, Nat.zero_le _, (hnow.trans hsent).trans hwritten⟩

theorem Ended.written_all [Host] (h : Ended site codes w) {settings : Settings}
    {behaviour : Behaviour}
    {session : Session} {noted : List Notice} (hsettings : site.settings? = .ok settings)
    (hlaunch : site.launch 0 = .ok behaviour)
    (hready : Session.connect (Child.start behaviour) settings.timeout =
      some (.ok (), session, noted))
    (halive : behaviour.exit = none) (houtlives : behaviour.OutlivesEach [] (lines codes)) :
    w.written = lines codes := by
  obtain ⟨hnone, hunready⟩ | ⟨launched, session, now, answers, hlaunched, hlast, hwritten,
    hbehaviour, hexit, hrequests, hnow⟩ := h.written_cases
  · cases codes with
    | nil => exact hnone
    | cons code codes =>
      exact absurd hready
        (hunready settings behaviour session noted (List.cons_ne_nil _ _) hsettings hlaunch)
  · obtain rfl := Except.ok.inj (hlaunch.symm.trans hlaunched)
    have hsent := Session.written_of_outlivesEach (hexit.trans halive)
      (by rw [hbehaviour, hwritten, hlast]; exact houtlives) hrequests
    rw [hwritten, hlast] at hsent
    exact hnow.trans hsent

end Ended

end Diagram

namespace Formula

/-- The input that a script was given, unless it could not be run. -/
def taken? (site : Site) (number : Nat) (call : ScriptCall) : Option Text :=
  match site.runScript number call with
  | .refused _ => none
  | .finished .. | .undecodable .. => some call.input

/-- What the calls of scripts have made of a world in which none had been called before. -/
structure Called (site : Site) (settings : Settings) (calls : List ScriptCall) (w : World) :
    Prop where
  spawns : w.spawns.filter (·.family = .math) =
    List.replicate calls.length ⟨.math, settings.executable, settings.packageDir⟩
  inputs : w.inputs = calls.zipIdx.filterMap fun (call, number) => taken? site number call

section Called

variable {site : Site} {settings : Settings} {calls : List ScriptCall} {w : World}

theorem Called.attempts (h : Called site settings calls w) :
    w.attempts .math = calls.length := by
  rw [World.attempts, List.countP_eq_length_filter, h.spawns, List.length_replicate]

theorem Called.framed {v : World} (h : Called site settings calls w)
    (hsame : World.SameScripts w v) : Called site settings calls v :=
  ⟨hsame.spawns.trans h.spawns, hsame.inputs.trans h.inputs⟩

/-- Every script continues the account of those in front of it. -/
theorem Called.runOnce [Host] (h : Called site settings calls w) (payload : Json.Members) :
    Called site settings (calls ++ [Script.call payload settings])
      (site.runOnce payload settings w).2 := by
  refine ⟨?_, ?_⟩
  · simp [Site.runOnce, List.filter_append, h.spawns, List.replicate_succ']
  · simp only [Site.runOnce, h.attempts, h.inputs, List.zipIdx_append, List.filterMap_append]
    congr 1
    simp only [List.zipIdx_singleton, Nat.zero_add, List.filterMap_cons, List.filterMap_nil, taken?]
    cases site.runScript calls.length (Script.call payload settings) <;> rfl

theorem sameSessions_runOnce [Host] (site : Site) (payload : Json.Members) (settings : Settings)
    (w : World) : World.SameSessions w (site.runOnce payload settings w).2 :=
  ⟨by simp [Site.runOnce, World.attempts], rfl⟩

theorem state_check [Host] (hsettings : site.settings? = .ok settings) (options : Options)
    (code : Text) (w : World) : (check site options code w).state =
      (site.runOnce (payload code options.displayMode options.strict) settings w).2 := by
  simp only [check, parse, hsettings]
  cases (site.runOnce (payload code options.displayMode options.strict) settings w).1 <;> rfl

/-- Whatever comes of a formula, nothing is done for diagrams. -/
theorem sameSessions_check [Host] (site : Site) (options : Options) (code : Text) (w : World) :
    World.SameSessions w (check site options code w).state := by
  cases hsettings : site.settings? with
  | error fault =>
    simp only [check, parse, hsettings]
    exact ⟨rfl, rfl⟩
  | ok settings =>
    rw [state_check hsettings]
    exact sameSessions_runOnce site _ settings w

end Called

end Formula

namespace Lint

def Task.diagram? (t : Task) : Option Text :=
  match t.rule.family with
  | .mermaid => some t.code
  | .math => none

def Task.call? (settings : Settings) (t : Task) : Option ScriptCall :=
  match t.rule.family with
  | .mermaid => none
  | .math =>
    some (Script.call (Formula.payload t.code t.options.displayMode t.options.strict) settings)

/-- A task is about a diagram, or it is about a formula. -/
theorem Task.check_cases [Host] {site : Site} {task : Task} {s : Shared World}
    {answer : Checked (Shared World)} (hcheck : task.check site s = some answer) :
    (task.rule.family = .mermaid ∧ Diagram.check site.keeper task.code s = some answer) ∨
    (task.rule.family = .math ∧ answer.state = { s with
      world := (Formula.check site task.options task.code s.world).state }) := by
  simp only [Task.check, Rule.checker] at hcheck
  cases hfamily : task.rule.family with
  | mermaid =>
    rw [hfamily] at hcheck
    exact .inl ⟨rfl, hcheck⟩
  | math =>
    rw [hfamily] at hcheck
    simp only [Formula.checker, Option.map_some, Option.some.injEq] at hcheck
    exact .inr ⟨rfl, hcheck ▸ rfl⟩

section Step

variable {site : Site} {done : List Task} {task : Task} {s : Shared World}
  {answer : Checked (Shared World)}

theorem served_step [Host] (h : Diagram.Served site (done.filterMap Task.diagram?) s)
    (hcheck : task.check site s = some answer) :
    Diagram.Served site ((done ++ [task]).filterMap Task.diagram?) answer.state := by
  rw [List.filterMap_append]
  obtain ⟨hfamily, hcheck⟩ | ⟨hfamily, hstate⟩ := Task.check_cases hcheck
  · have hdiagram : task.diagram? = some task.code := by simp [Task.diagram?, hfamily]
    rw [List.filterMap_cons_some hdiagram]
    exact (h.check hcheck).1
  · have hdiagram : task.diagram? = none := by simp [Task.diagram?, hfamily]
    rw [List.filterMap_cons_none hdiagram, List.filterMap_nil, List.append_nil, hstate]
    exact h.framed (Formula.sameSessions_check _ _ _ _)

theorem called_step [Host] {settings : Settings} (hsettings : site.settings? = .ok settings)
    (hdiagrams : Diagram.Served site (done.filterMap Task.diagram?) s)
    (h : Formula.Called site settings (done.filterMap (Task.call? settings)) s.world)
    (hcheck : task.check site s = some answer) :
    Formula.Called site settings ((done ++ [task]).filterMap (Task.call? settings))
      answer.state.world := by
  rw [List.filterMap_append]
  obtain ⟨hfamily, hcheck⟩ | ⟨hfamily, hstate⟩ := Task.check_cases hcheck
  · have hcall : task.call? settings = none := by simp [Task.call?, hfamily]
    rw [List.filterMap_cons_none hcall, List.filterMap_nil, List.append_nil]
    exact h.framed (hdiagrams.check hcheck).2
  · have hcall : task.call? settings = some (Script.call
        (Formula.payload task.code task.options.displayMode task.options.strict) settings) := by
      simp [Task.call?, hfamily]
    rw [List.filterMap_cons_some hcall, hstate, Formula.state_check hsettings]
    exact h.runOnce _

end Step

/-- What tasks that are done on a fresh start make of the shared session. -/
theorem served_of_behind? [Host] {site : Site} {tasks : List Task} {t : Shared World}
    (h : behind? site tasks { world := {} } = some t) :
    Diagram.Served site (tasks.filterMap Task.diagram?) t :=
  behind?_induction (I := fun done s => Diagram.Served site (done.filterMap Task.diagram?) s)
    served_step (.unasked rfl rfl rfl) h

theorem called_of_behind? [Host] {site : Site} {settings : Settings}
    (hsettings : site.settings? = .ok settings) {tasks : List Task} {t : Shared World}
    (h : behind? site tasks { world := {} } = some t) :
    Formula.Called site settings (tasks.filterMap (Task.call? settings)) t.world :=
  (behind?_induction (I := fun done s => Diagram.Served site (done.filterMap Task.diagram?) s ∧
      Formula.Called site settings (done.filterMap (Task.call? settings)) s.world)
    -- A diagram leaves the scripts alone, which is known of its account only: so both are carried.
    (fun hboth hcheck => ⟨served_step hboth.1 hcheck,
      called_step hsettings hboth.1 hboth.2 hcheck⟩)
    ⟨.unasked rfl rfl rfl, rfl, rfl⟩ h).2

/-- The rules that run, given the options of those that are not turned off. -/
def running (diagrams formulas : Option Options) : List (Rule × Options) :=
  (diagrams.map fun o => (Rule.diagrams, o)).toList ++
    (formulas.map fun o => (Rule.formulas, o)).toList

theorem enabled_all {config : Json.Members} {diagrams formulas : Option Options}
    (hdiagrams : Rule.diagrams.options? config = .ok diagrams)
    (hformulas : Rule.formulas.options? config = .ok formulas) :
    Rule.enabled config Rule.all = .ok (running diagrams formulas) := by
  simp [Rule.all, Rule.enabled, hdiagrams, hformulas, running, bind, Except.bind, pure, Except.pure]

/-- The codes of the fragments of a family that are not blank, in the tokens of a document. -/
def fragmentCodes (family : Family) (tokens : List (Token Line)) : List Text :=
  (family.extractor.fragments tokens).filterMap Fragment.asked?

/-- The same in documents, in their order. -/
def codes (family : Family) (documents : List (Text × Text)) : List Text :=
  documents.flatMap fun (_, text) => fragmentCodes family (Markdown.tokenize text)

/-- The diagrams that the rule for them asks about. -/
def askedDiagrams (diagrams : Option Options) (documents : List (Text × Text)) : List Text :=
  match diagrams with
  | some o => if o.mode = .full then codes .mermaid documents else []
  | none => []

/-- The calls of scripts that the rule for formulas makes. -/
def madeCalls (settings : Settings) (formulas : Option Options)
    (documents : List (Text × Text)) : List ScriptCall :=
  match formulas with
  | some o => (codes .math documents).map fun code =>
      Script.call (Formula.payload code o.displayMode o.strict) settings
  | none => []

theorem codesIn_diagrams (o : Options) (tokens : List (Token Line)) :
    codesIn Rule.diagrams o tokens =
      if o.mode = .full then fragmentCodes .mermaid tokens else [] := by
  have hfamily : Rule.diagrams.family = .mermaid := rfl
  rw [codesIn, hfamily, fragmentCodes]
  cases o.mode <;> rfl

theorem codesIn_formulas (o : Options) (tokens : List (Token Line)) :
    codesIn Rule.formulas o tokens = fragmentCodes .math tokens := by
  have hfamily : Rule.formulas.family = .math := rfl
  rw [codesIn, hfamily, fragmentCodes]
  cases o.mode <;> rfl

theorem tasksIn_running (diagrams formulas : Option Options) (tokens : List (Token Line)) :
    tasksIn (running diagrams formulas) tokens =
      (diagrams.toList.flatMap fun o =>
        (codesIn Rule.diagrams o tokens).map (Task.mk Rule.diagrams o)) ++
      formulas.toList.flatMap fun o =>
        (codesIn Rule.formulas o tokens).map (Task.mk Rule.formulas o) := by
  cases diagrams <;> cases formulas <;> simp [tasksIn, running]

theorem flatMap_nil {α β : Type} (l : List α) : (l.flatMap fun _ => ([] : List β)) = [] :=
  List.flatMap_eq_nil_iff.mpr fun _ _ => rfl

theorem diagrams_tasks (diagrams formulas : Option Options) (documents : List (Text × Text)) :
    (tasks (running diagrams formulas) documents).filterMap Task.diagram? =
      askedDiagrams diagrams documents := by
  have hdiagrams : ∀ o (texts : List Text),
      (texts.map (Task.mk Rule.diagrams o)).filterMap Task.diagram? = texts := by
    intro o texts
    rw [List.filterMap_map]
    exact List.filterMap_some
  have hformulas : ∀ o (texts : List Text),
      (texts.map (Task.mk Rule.formulas o)).filterMap Task.diagram? = [] := by
    intro o texts
    rw [List.filterMap_map]
    exact List.filterMap_eq_nil_iff.mpr fun _ _ => rfl
  simp only [tasks, tasksIn_running, List.filterMap_flatMap, List.filterMap_append, hdiagrams,
    hformulas, codesIn_diagrams]
  cases diagrams with
  | none => simp [askedDiagrams]
  | some o =>
    by_cases hmode : o.mode = .full
    · simp [askedDiagrams, hmode, codes, flatMap_nil]
    · simp [askedDiagrams, hmode]

theorem calls_tasks (settings : Settings) (diagrams formulas : Option Options)
    (documents : List (Text × Text)) :
    (tasks (running diagrams formulas) documents).filterMap (Task.call? settings) =
      madeCalls settings formulas documents := by
  have hdiagrams : ∀ o (texts : List Text),
      (texts.map (Task.mk Rule.diagrams o)).filterMap (Task.call? settings) = [] := by
    intro o texts
    rw [List.filterMap_map]
    exact List.filterMap_eq_nil_iff.mpr fun _ _ => rfl
  have hformulas : ∀ (o : Options) (texts : List Text),
      (texts.map (Task.mk Rule.formulas o)).filterMap (Task.call? settings) = texts.map fun code =>
        Script.call (Formula.payload code o.displayMode o.strict) settings := by
    intro o texts
    rw [List.filterMap_map, ← List.filterMap_eq_map]
    rfl
  simp only [tasks, tasksIn_running, List.filterMap_flatMap, List.filterMap_append, hdiagrams,
    hformulas, codesIn_formulas]
  cases formulas with
  | none => simp [madeCalls]
  | some o => simp [madeCalls, codes, List.map_flatMap, flatMap_nil]

/-- Where nothing is kept there is nothing to close. -/
theorem closeRules_idle [Host] {s : Shared World} (hmemo : s.memo = none) (site : Site)
    (rules : List (Rule × Options)) : closeRules site rules s = some (.ok (), [], s) := by
  have hclose : s.close site.keeper = (some (.ok ()), [], s) := by
    obtain ⟨loop, memo, world⟩ := s
    obtain rfl : memo = none := hmemo
    rfl
  induction rules with
  | nil => rfl
  | cons r rules ih =>
    rw [closeRules]
    split
    · simp only [hclose, ih]
      rfl
    · exact ih

/-- Rules of which one has something to close close the shared session. -/
theorem closeRules_closing [Host] {rules : List (Rule × Options)}
    (h : ∃ r ∈ rules, r.1.closes = true) (site : Site) (s : Shared World) :
    closeRules site rules s = (s.close site.keeper).1.map fun closed =>
      (closed, (s.close site.keeper).2) := by
  induction rules with
  | nil => simp at h
  | cons r rules ih =>
    obtain ⟨r, options⟩ := r
    rw [closeRules]
    by_cases hcloses : r.closes = true
    · -- What is closed here is not there any more for the rules behind.
      obtain ⟨w, hclosed, -⟩ := Shared.close_cases site.keeper s
      have hmemo : (s.close site.keeper).2.2.memo = none := by rw [hclosed]
      have hidle := closeRules_idle hmemo site rules
      rw [if_pos hcloses]
      generalize s.close site.keeper = r at hidle ⊢
      obtain ⟨closed, noted, t⟩ := r
      cases closed with
      | none => rfl
      | some closed =>
        cases closed with
        | error fault => rfl
        | ok u =>
          dsimp only at hidle ⊢
          rw [hidle]
          simp
    · rw [if_neg hcloses]
      refine ih ?_
      simpa [hcloses] using h

theorem closeRules_resting [Host] {rules : List (Rule × Options)}
    (h : ∀ r ∈ rules, r.1.closes = false)
    (site : Site) (s : Shared World) : closeRules site rules s = some (.ok (), [], s) := by
  induction rules with
  | nil => rfl
  | cons r rules ih =>
    obtain ⟨r, options⟩ := r
    obtain ⟨hr, hrules⟩ := List.forall_mem_cons.mp h
    have hr : r.closes = false := hr
    rw [closeRules, hr]
    exact ih hrules

/-- Closing what the rules hold closes the shared session, if the rule for diagrams runs. -/
theorem closeRules_running [Host] {site : Site} {diagrams formulas : Option Options}
    {s t : Shared World} {closed : Except Fault Unit} {noted : List Notice}
    (h : closeRules site (running diagrams formulas) s = some (closed, noted, t)) :
    t = if diagrams.isSome then (s.close site.keeper).2.2 else s := by
  cases diagrams with
  | none =>
    have hresting : ∀ r ∈ running none formulas, r.1.closes = false := by
      cases formulas with
      | none => exact fun _ hr => absurd hr List.not_mem_nil
      | some o => exact List.forall_mem_singleton.mpr rfl
    rw [closeRules_resting hresting, Option.some.injEq] at h
    exact (congrArg (·.2.2) h).symm
  | some o =>
    have hcloses : ∃ r ∈ running (some o) formulas, r.1.closes = true :=
      ⟨(Rule.diagrams, o), List.mem_cons_self, rfl⟩
    rw [closeRules_closing hcloses] at h
    obtain ⟨closed', -, heq⟩ := Option.map_eq_some_iff.mp h
    exact (congrArg (·.2.2) heq).symm

section Run

variable {site : Site} {config : Json.Members} {documents : List (Text × Text)}
  {diagrams formulas : Option Options} {outcome : Outcome}

/-- A run does its tasks and closes the shared session, if the rule for diagrams runs. -/
theorem behind?_of_lint [Host] (hdiagrams : Rule.diagrams.options? config = .ok diagrams)
    (hformulas : Rule.formulas.options? config = .ok formulas)
    (hlint : lint site Rule.all config documents = some outcome) :
    ∃ s, behind? site (tasks (running diagrams formulas) documents) { world := {} } = some s ∧
      outcome.world = (if diagrams.isSome then (s.close site.keeper).2.2 else s).world := by
  simp only [lint, enabled_all hdiagrams hformulas, Option.bind_eq_bind, Option.bind_eq_some_iff,
    Option.pure_def, Option.some.injEq] at hlint
  obtain ⟨⟨found, noted, s⟩, hrun, ⟨closed, more, t⟩, hclose, rfl⟩ := hlint
  exact ⟨s, behind?_of_runDocuments hrun, congrArg Shared.world (closeRules_running hclose)⟩

theorem ended_of_lint [Host] (hdiagrams : Rule.diagrams.options? config = .ok diagrams)
    (hformulas : Rule.formulas.options? config = .ok formulas)
    (hlint : lint site Rule.all config documents = some outcome) :
    Diagram.Ended site (askedDiagrams diagrams documents) outcome.world := by
  obtain ⟨s, hbehind, hworld⟩ := behind?_of_lint hdiagrams hformulas hlint
  have hserved := served_of_behind? hbehind
  rw [diagrams_tasks] at hserved
  rw [hworld]
  cases diagrams with
  | some o => exact hserved.close.1
  | none =>
    obtain ⟨-, hattempts, hsessions⟩ := hserved.idle
    exact .unasked hattempts hsessions

theorem called_of_lint [Host] {settings : Settings} (hsettings : site.settings? = .ok settings)
    (hdiagrams : Rule.diagrams.options? config = .ok diagrams)
    (hformulas : Rule.formulas.options? config = .ok formulas)
    (hlint : lint site Rule.all config documents = some outcome) :
    Formula.Called site settings (madeCalls settings formulas documents) outcome.world := by
  obtain ⟨s, hbehind, hworld⟩ := behind?_of_lint hdiagrams hformulas hlint
  have hcalled := called_of_behind? hsettings hbehind
  rw [calls_tasks] at hcalled
  rw [hworld]
  cases diagrams with
  | some o => exact hcalled.framed (served_of_behind? hbehind).close.2
  | none => exact hcalled

/-- What a run with valid settings does with processes. The rule for diagrams, in full mode, makes
one attempt to start a session if any diagram is not blank. If the process takes every line that it
is given, or none, the lines that were written ask about the first few diagrams, numbered from one,
and about all of them if the session is ready and the process takes each line and outlives it. In
basic mode, or turned off, the rule starts nothing. The rule for formulas makes one attempt for
each formula that is not blank, in order, and each script that could be run was given the code of
its formula with the options of the rule. -/
theorem run_accounted [Host] {settings : Settings} (hsettings : site.settings? = .ok settings)
    (hdiagrams : Rule.diagrams.options? config = .ok diagrams)
    (hformulas : Rule.formulas.options? config = .ok formulas)
    (hlint : lint site Rule.all config documents = some outcome) :
    (∀ o ∈ diagrams, o.mode = .full →
      (outcome.world.attempts .mermaid = if codes .mermaid documents = [] then 0 else 1) ∧
      ((∀ behaviour, site.launch 0 = .ok behaviour →
          behaviour.TakesEach [] (Diagram.lines (codes .mermaid documents)) ∨
          behaviour.RefusesEach [] (Diagram.lines (codes .mermaid documents))) →
        ∃ k ≤ (codes .mermaid documents).length,
          outcome.world.written = (Diagram.lines (codes .mermaid documents)).take k) ∧
      ∀ behaviour session noted, site.launch 0 = .ok behaviour →
        Session.connect (Child.start behaviour) settings.timeout =
          some (.ok (), session, noted) →
        behaviour.exit = none →
        behaviour.OutlivesEach [] (Diagram.lines (codes .mermaid documents)) →
        outcome.world.written = Diagram.lines (codes .mermaid documents)) ∧
    ((∀ o ∈ diagrams, o.mode = .basic) →
      outcome.world.attempts .mermaid = 0 ∧ outcome.world.sessions = []) ∧
    ∀ o ∈ formulas,
      outcome.world.spawns.filter (·.family = .math) =
        List.replicate (codes .math documents).length
          ⟨.math, settings.executable, settings.packageDir⟩ ∧
      outcome.world.inputs =
        (codes .math documents).zipIdx.filterMap fun (code, number) =>
          Formula.taken? site number
            (Script.call (Formula.payload code o.displayMode o.strict) settings) := by
  have hended := ended_of_lint hdiagrams hformulas hlint
  have hcalled := called_of_lint hsettings hdiagrams hformulas hlint
  refine ⟨?_, ?_, ?_⟩
  · rintro o rfl hfull
    have hasked : askedDiagrams (some o) documents = codes .mermaid documents := if_pos hfull
    rw [hasked] at hended
    refine ⟨hended.attempts hsettings, hended.written_take, ?_⟩
    intro behaviour session noted hlaunch hready halive houtlives
    exact hended.written_all hsettings hlaunch hready halive houtlives
  · intro hbasic
    have hasked : askedDiagrams diagrams documents = [] := by
      cases diagrams with
      | none => rfl
      | some o => simp [askedDiagrams, hbasic o rfl]
    rw [hasked] at hended
    exact hended.idle
  · rintro o rfl
    obtain ⟨hspawns, hinputs⟩ := hcalled
    refine ⟨by rw [hspawns, madeCalls, List.length_map], ?_⟩
    rw [hinputs, madeCalls, List.zipIdx_map, List.filterMap_map]
    rfl

end Run

/-- A process that is ready at once and answers every line with an empty object. -/
def echo : Behaviour :=
  { pid := 1
    output := "\x7b\"ready\": true\x7d\n"
    errors := []
    exit := none
    react := fun _ => .write "\x7b\x7d\n" [] none
    exitAtClose := some 0 }

theorem outlivesEach_echo (before lines : List Text) : echo.OutlivesEach before lines := by
  induction lines generalizing before with
  | nil => trivial
  | cons line lines ih => exact ⟨⟨_, _, rfl⟩, ih _⟩

section

open scoped Host.Usual

theorem connect_echo : ∃ session noted,
    Session.connect (Child.start echo) none = some (.ok (), session, noted) := by
  have hready : (Session.connect (Child.start echo) none).any (·.1.isOk) = true := by
    decide +kernel
  cases hconnect : Session.connect (Child.start echo) none with
  | none => simp [hconnect] at hready
  | some r =>
    obtain ⟨outcome, session, noted⟩ := r
    cases outcome with
    | ok u => exact ⟨session, noted, rfl⟩
    | error fault => simp [hconnect, Except.isOk, Except.toBool] at hready

/-- A site with that process, at which no script can be run. -/
def echoSite : Site :=
  { settings := (Settings.make? "node" none none).toOption
    launch := fun _ => .ok echo
    runScript := fun _ _ => .refused "no such program" }

/-- Two documents with a diagram each, and a formula between the diagrams. -/
def twoDocuments : List (Text × Text) :=
  [("a.md", "```mermaid\npie\n```\n\n```math\nx\n```"), ("b.md", "```mermaid\ngraph\n```")]

theorem lint_twoDocuments : ∃ outcome, lint echoSite Rule.all [] twoDocuments = some outcome := by
  have hsome : (lint echoSite Rule.all [] twoDocuments).isSome = true := by decide +kernel
  exact Option.isSome_iff_exists.mp hsome

theorem run_accounted_twoDocuments : ∃ outcome,
    lint echoSite Rule.all [] twoDocuments = some outcome ∧
    outcome.world.attempts .mermaid = 1 ∧
    outcome.world.written = Diagram.lines ["pie", "graph"] ∧
    outcome.world.spawns.filter (·.family = .math) = [⟨.math, "node", none⟩] ∧
    outcome.world.inputs = [] := by
  obtain ⟨outcome, hlint⟩ := lint_twoDocuments
  have hmermaid : codes .mermaid twoDocuments = ["pie", "graph"] := by decide +kernel
  have hmath : codes .math twoDocuments = ["x"] := by decide +kernel
  obtain ⟨session, noted, hready⟩ := connect_echo
  obtain ⟨hdiagrams, -, hformulas⟩ := run_accounted rfl rfl rfl hlint
  obtain ⟨hattempts, -, hwritten⟩ := hdiagrams {} rfl rfl
  obtain ⟨hspawns, hinputs⟩ := hformulas {} rfl
  rw [hmermaid] at hattempts hwritten
  rw [hmath] at hspawns hinputs
  exact ⟨outcome, hlint, hattempts,
    hwritten echo session noted rfl hready rfl (outlivesEach_echo _ _), hspawns, hinputs⟩

end

end Lint

end FragmentLint
