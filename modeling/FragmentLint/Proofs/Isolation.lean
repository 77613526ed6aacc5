import FragmentLint.Proofs.Assembly
import FragmentLint.Proofs.Renumbering

/-!
# Calls of the linter do not depend on one another

The rules and the session that they share outlive a call of the linter, and every call runs in an
event loop of its own. A call gives the shared session back as it found it, with no start-up kept,
whichever way it ends, so the next call does what it would do alone: it starts processes of its own
and numbers its requests from one. The processes that were started are closed with the session. One
that greets with output beyond what can be read, such as a line that is too long, is an exception to
that, and to nothing else.
-/
namespace FragmentLint

namespace Diagram

theorem loop_check [Host] {site : Site} {code : Text} {s : Shared World}
    {answer : Checked (Shared World)} (h : check site.keeper code s = some answer) :
    answer.state.loop = s.loop := by
  have hsession : (s.session site.keeper).2.2.loop = s.loop := by
    show (s.begin site.keeper).2.2.loop = s.loop
    exact Shared.loop_begin
  obtain ⟨outcome, noted, t, hparse, rfl⟩ := check_eq_some_iff.mp h
  obtain ⟨-, ⟨fault, -, -, rfl⟩ | ⟨n, answer, world, -, -, rfl, -⟩⟩ := parse_cases hparse
  · exact hsession
  · exact hsession

end Diagram

namespace Lint

/-- The tasks of a run stay in its loop. -/
theorem loop_of_behind? [Host] {site : Site} {tasks : List Task} {s t : Shared World}
    (h : behind? site tasks s = some t) : t.loop = s.loop := by
  refine behind?_induction (I := fun _ u => u.loop = s.loop) ?_ rfl h
  intro done task u answer hloop hcheck
  obtain ⟨-, hcheck⟩ | ⟨-, hstate⟩ := Task.check_cases hcheck
  · exact (Diagram.loop_check hcheck).trans hloop
  · rw [hstate]
    exact hloop

theorem enabled_all_iff {config : Json.Members} {rules : List (Rule × Options)} :
    Rule.enabled config Rule.all = .ok rules ↔ ∃ diagrams formulas,
      Rule.diagrams.options? config = .ok diagrams ∧
      Rule.formulas.options? config = .ok formulas ∧ rules = running diagrams formulas := by
  constructor
  · intro h
    cases hdiagrams : Rule.diagrams.options? config with
    | error fault => simp [Rule.all, Rule.enabled, hdiagrams, bind, Except.bind] at h
    | ok diagrams =>
      cases hformulas : Rule.formulas.options? config with
      | error fault => simp [Rule.all, Rule.enabled, hdiagrams, hformulas, bind, Except.bind] at h
      | ok formulas =>
        rw [enabled_all hdiagrams hformulas] at h
        exact ⟨diagrams, formulas, rfl, rfl, (Except.ok.inj h).symm⟩
  · rintro ⟨diagrams, formulas, hdiagrams, hformulas, rfl⟩
    exact enabled_all hdiagrams hformulas

/-- A run on a fresh start keeps no start-up. -/
theorem memo_of_run [Host] {site : Site} {config : Json.Members} {rules : List (Rule × Options)}
    {documents : List (Text × Text)} {results : List (Text × List Entry)} {s t : Shared World}
    {closed : Except Fault Unit} {noted more : List Notice}
    (hrules : Rule.enabled config Rule.all = .ok rules)
    (hrun : runDocuments site rules documents { world := {} } = some (results, noted, s))
    (hclose : closeRules site rules s = some (closed, more, t)) : t.memo = none ∧ t.loop = 0 := by
  obtain ⟨diagrams, formulas, -, -, rfl⟩ := enabled_all_iff.mp hrules
  have hbehind := behind?_of_runDocuments hrun
  have hloop : s.loop = 0 := loop_of_behind? hbehind
  rw [closeRules_running hclose]
  cases diagrams with
  | some o =>
    obtain ⟨w, hstate, -⟩ := Shared.close_cases site.keeper s
    rw [Option.isSome_some, if_pos rfl, hstate]
    exact ⟨rfl, hloop⟩
  | none =>
    have hserved := served_of_behind? hbehind
    rw [diagrams_tasks] at hserved
    exact ⟨hserved.idle.1, hloop⟩

end Lint

namespace World

def since (v w : World) : World :=
  ⟨v.spawns.drop w.spawns.length, v.sessions.drop w.sessions.length,
    v.inputs.drop w.inputs.length⟩

theorem since_append (w v : World) : (w ++ v).since w = v := by
  simp [since, append_def]

end World

namespace Lint

/-- What a call of the linter is given. -/
structure Call where
  site : Site
  config : Json.Members
  documents : List (Text × Text)

namespace Call

/-- The outcome of a call that is the first one to use the shared session. -/
def alone [Host] (call : Call) : Option Outcome :=
  lint call.site Rule.all call.config call.documents

/-- The outcome of a call that finds the shared session as the calls before it left it, with the
shared session behind it. The call runs in a loop of its own. Its processes are counted from its
own start, and its world is what it adds. -/
def within [Host] (call : Call) (s : Shared World) : Option (Outcome × Shared World) :=
  match Rule.enabled call.config Rule.all with
  | .error fault => some (⟨.error (.config fault), [], {}⟩, s.nextLoop)
  | .ok rules => do
    let site := call.site.behind s.world
    let (results, noted, t) ← runDocuments site rules call.documents s.nextLoop
    let (closed, more, t) ← closeRules site rules t
    return (⟨closed.map fun () => results, noted ++ more, t.world.since s.world⟩, t)

/-- A call that finds no start-up does what it would do alone, behind what was run before, and
leaves none. -/
theorem within_eq_alone [Host] (call : Call) {s : Shared World} (hmemo : s.memo = none) :
    call.within s = call.alone.map fun outcome =>
      (outcome, { loop := s.loop + 1, memo := none, world := s.world ++ outcome.world }) := by
  -- Without a start-up that is kept, only the loop and the world are left of the calls before.
  have hfresh : s.nextLoop = Shared.behind (s.loop + 1) s.world { world := {} } := by
    simp [Shared.nextLoop, Shared.behind, hmemo]
  unfold within alone lint
  cases hrules : Rule.enabled call.config Rule.all with
  | error fault =>
    simp only [Option.map_some, World.append_empty, Shared.nextLoop, hmemo]
  | ok rules =>
    simp only [hfresh, runDocuments_behind]
    cases hrun : runDocuments call.site rules call.documents { world := {} } with
    | none => rfl
    | some first =>
      simp only [Option.map_some, Option.bind_eq_bind, Option.bind_some, closeRules_behind]
      cases hclose : closeRules call.site rules first.2.2 with
      | none => rfl
      | some last =>
        obtain ⟨hnone, hloop⟩ := memo_of_run hrules hrun hclose
        simp [Shared.behind, World.since_append, hnone, hloop]

end Call

/-- The outcomes of calls that are made one after another, with the shared session behind them. -/
def inTurn [Host] : List Call → Shared World → Option (List Outcome × Shared World)
  | [], s => some ([], s)
  | call :: calls, s => do
    let (outcome, s) ← call.within s
    let (outcomes, s) ← inTurn calls s
    return (outcome :: outcomes, s)

def allRun : List Outcome → World
  | [] => {}
  | outcome :: outcomes => outcome.world ++ allRun outcomes

/-- Calls in turn do what each of them does alone. -/
theorem inTurn_eq [Host] (calls : List Call) {s : Shared World} (hmemo : s.memo = none) :
    inTurn calls s = (calls.mapM Call.alone).map fun outcomes =>
      (outcomes,
        { loop := s.loop + calls.length, memo := none, world := s.world ++ allRun outcomes }) := by
  induction calls generalizing s with
  | nil =>
    obtain ⟨loop, memo, world⟩ := s
    obtain rfl : memo = none := hmemo
    simp [inTurn, allRun]
  | cons call calls ih =>
    rw [inTurn, call.within_eq_alone hmemo, List.mapM_cons]
    cases call.alone with
    | none => rfl
    | some outcome =>
      simp only [Option.map_some, Option.bind_eq_bind, Option.bind_some, ih]
      cases calls.mapM Call.alone with
      | none => rfl
      | some outcomes =>
        simp [allRun, World.append_assoc, Nat.add_comm, Nat.add_left_comm]

end Lint

/-- The first process that a session of a site is started with greets with output that cannot be
read, and does not end after it. No other one is left running: a script has ended by the time its
formula is judged. -/
def Site.Abandons [Host] (site : Site) : Prop :=
  ∃ behaviour fault, site.launch 0 = .ok behaviour ∧ behaviour.exit = none ∧
    Session.Garbled (Child.start behaviour) fault

theorem Site.abandons_iff [Host] {site : Site} {behaviour : Behaviour}
    (hlaunch : site.launch 0 = .ok behaviour) : site.Abandons ↔
      behaviour.exit = none ∧ ∃ fault, Session.Garbled (Child.start behaviour) fault := by
  constructor
  · rintro ⟨launched, fault, hlaunched, hexit, hgarbled⟩
    obtain rfl := Except.ok.inj (hlaunch.symm.trans hlaunched)
    exact ⟨hexit, fault, hgarbled⟩
  · rintro ⟨hexit, fault, hgarbled⟩
    exact ⟨behaviour, fault, hlaunch, hexit, hgarbled⟩

/-- A session that was greeted with something that can be read is not abandoned. -/
theorem Site.not_abandons_of_connect [Host] {site : Site} {behaviour : Behaviour}
    (hlaunch : site.launch 0 = .ok behaviour) {timeout : Option Number}
    (htime : timeout.any Number.isNonpositive = false) {outcome : Except Fault Unit}
    {session : Session} {noted : List Notice}
    (hconnect : Session.connect (Child.start behaviour) timeout = some (outcome, session, noted))
    (hread : ∀ fault, outcome ≠ .error (.value fault)) : ¬ site.Abandons := by
  rw [abandons_iff hlaunch]
  rintro ⟨-, fault, hgarbled⟩
  obtain ⟨other, more, hvalue⟩ := (Session.connect_eq_value_iff htime).mpr hgarbled
  rw [hconnect] at hvalue
  exact hread fault (congrArg Prod.fst (Option.some.inj hvalue))

/-- A session that could not be used was closed, unless its process is abandoned. -/
theorem Site.exited_iff_of_connect [Host] {site : Site} {behaviour : Behaviour}
    (hlaunch : site.launch 0 = .ok behaviour) {settings : Settings} {fault : Fault}
    {session : Session} {noted : List Notice}
    (hconnect : Session.connect (Child.start behaviour) settings.timeout =
      some (.error fault, session, noted)) :
    (∃ code, session.child.exit = some code) ↔ ¬ site.Abandons := by
  have hgreeted := Session.greeted_of_connect hconnect
  obtain ⟨fault, rfl⟩ | ⟨fault, rfl⟩ := Session.ofProcess_of_connect hconnect
  · exact iff_of_true (hgreeted.closed fault rfl)
      (not_abandons_of_connect hlaunch (timeout_positive settings) hconnect nofun)
  · have hgarbled : Session.Garbled (Child.start behaviour) fault :=
      (Session.connect_eq_value_iff (Site.timeout_positive settings)).mp ⟨session, noted, hconnect⟩
    have hexit : session.child.exit = behaviour.exit :=
      (hgreeted.left fault rfl).trans (Child.exit_emit rfl _ _ _)
    rw [abandons_iff hlaunch, hexit, ← Option.ne_none_iff_exists']
    exact not_congr (iff_self_and.mpr fun _ => ⟨fault, hgarbled⟩)

namespace Diagram

theorem Ended.exited_iff [Host] {site : Site} {codes : List Text} {w : World}
    (h : Ended site codes w) {session : Session} (hsession : session ∈ w.sessions) :
    (∃ code, session.child.exit = some code) ↔ ¬ site.Abandons := by
  cases h with
  | unasked hattempts hsessions => simp [hsessions] at hsession
  | unset hne hsettings hattempts hsessions => simp [hsessions] at hsession
  | refused hne hsettings hlaunch hattempts hsessions => simp [hsessions] at hsession
  | failed hne hsettings hlaunch hconnect hattempts hsessions =>
    rw [hsessions] at hsession
    obtain rfl := List.mem_singleton.mp hsession
    exact site.exited_iff_of_connect hlaunch hconnect
  | @live settings _ _ _ _ _ _ _ hne hsettings hlaunch hconnect hattempts hrequests hsessions =>
    rw [hsessions] at hsession
    obtain rfl := List.mem_singleton.mp hsession
    exact iff_of_true ⟨_, Session.exit_close _⟩
      (Site.not_abandons_of_connect hlaunch (Site.timeout_positive settings) hconnect nofun)

/-- Where a process could be started for a diagram, one was. -/
theorem Ended.exists_session [Host] {site : Site} {codes : List Text} {w : World}
    (h : Ended site codes w) (hasked : codes ≠ []) {settings : Settings} {behaviour : Behaviour}
    (hset : site.settings? = .ok settings) (hlaunched : site.launch 0 = .ok behaviour) :
    ∃ session, session ∈ w.sessions := by
  cases h with
  | unasked => exact absurd rfl hasked
  | unset hne hsettings =>
    rw [hset] at hsettings
    cases hsettings
  | refused hne hsettings hlaunch =>
    rw [hlaunched] at hlaunch
    cases hlaunch
  | failed hne hsettings hlaunch hconnect hattempts hsessions =>
    rw [hsessions]
    exact ⟨_, List.mem_singleton_self _⟩
  | live hne hsettings hlaunch hconnect hattempts hrequests hsessions =>
    rw [hsessions]
    exact ⟨_, List.mem_singleton_self _⟩

end Diagram

namespace Lint

section Alone

variable {call : Call} {outcome : Outcome}

/-- A call asks about its own diagrams, or its configuration makes no sense and nothing is run. -/
theorem Call.alone_cases [Host] (h : call.alone = some outcome) :
    outcome.world = {} ∨ ∃ diagrams,
      Diagram.Ended call.site (askedDiagrams diagrams call.documents) outcome.world := by
  cases hrules : Rule.enabled call.config Rule.all with
  | error fault =>
    simp only [alone, lint, hrules, Option.some.injEq] at h
    exact .inl (by rw [← h])
  | ok rules =>
    obtain ⟨diagrams, formulas, hdiagrams, hformulas, -⟩ := enabled_all_iff.mp hrules
    exact .inr ⟨diagrams, ended_of_lint hdiagrams hformulas h⟩

theorem Call.exited_iff [Host] (h : call.alone = some outcome) {session : Session}
    (hsession : session ∈ outcome.world.sessions) :
    (∃ code, session.child.exit = some code) ↔ ¬ call.site.Abandons := by
  obtain hnone | ⟨diagrams, hended⟩ := Call.alone_cases h
  · rw [hnone] at hsession
    cases hsession
  · exact hended.exited_iff hsession

/-- The lines that a call writes ask about its own diagrams, numbered from one. -/
theorem Call.written_sublist [Host] (h : call.alone = some outcome) :
    outcome.world.written.Sublist (Diagram.lines (codes .mermaid call.documents)) := by
  obtain hnone | ⟨diagrams, hended⟩ := Call.alone_cases h
  · rw [hnone]
    exact List.nil_sublist _
  · have hwritten := hended.written_sublist
    cases diagrams with
    | none => exact hwritten.trans (List.nil_sublist _)
    | some o =>
      by_cases hfull : o.mode = .full
      · rwa [askedDiagrams, if_pos hfull] at hwritten
      · rw [askedDiagrams, if_neg hfull] at hwritten
        exact hwritten.trans (List.nil_sublist _)

end Alone

/-- If some values all have a result together, then each of them has the one at its place. -/
theorem forall₂_of_mapM {α β : Type} {f : α → Option β} {xs : List α} {ys : List β}
    (h : xs.mapM f = some ys) : List.Forall₂ (fun x y => f x = some y) xs ys := by
  induction xs generalizing ys with
  | nil =>
    obtain rfl := Option.some.inj h
    exact .nil
  | cons x xs ih =>
    simp only [List.mapM_cons, Option.bind_eq_bind, Option.bind_eq_some_iff, Option.pure_def,
      Option.some.injEq] at h
    obtain ⟨y, hx, others, hothers, rfl⟩ := h
    exact .cons hx (ih hothers)

theorem exists_call_of_mem [Host] {calls : List Call} {outcomes : List Outcome}
    (h : List.Forall₂ (fun call outcome => call.alone = some outcome) calls outcomes)
    {outcome : Outcome} (hmem : outcome ∈ outcomes) :
    ∃ call ∈ calls, call.alone = some outcome := by
  induction h with
  | nil => cases hmem
  | cons hcall _ ih =>
    obtain rfl | hmem := List.mem_cons.mp hmem
    · exact ⟨_, List.mem_cons_self, hcall⟩
    · obtain ⟨call, hmem, hcall⟩ := ih hmem
      exact ⟨call, List.mem_cons_of_mem _ hmem, hcall⟩

theorem mem_sessions_allRun {outcomes : List Outcome} {session : Session} :
    session ∈ (allRun outcomes).sessions ↔ ∃ o ∈ outcomes, session ∈ o.world.sessions := by
  induction outcomes with
  | nil => simp [allRun]
  | cons outcome outcomes ih => simp [allRun, ih]

/-- Calls of the linter that are made one after another do not depend on one another. They come to
an end exactly if each of them would alone, and then with the same outcome: the same results, the
same notices, and the same processes, behind those of the calls in front of it. No start-up is kept
then. Each call asks about its own diagrams, and numbers its requests from one. Its processes have
exited, unless its own site abandons them, and those of all calls have if no site does. -/
theorem calls_isolated [Host] (calls : List Call) :
    (inTurn calls { world := {} } = (calls.mapM Call.alone).map fun outcomes =>
      (outcomes, { loop := calls.length, memo := none, world := allRun outcomes })) ∧
    ∀ outcomes s, inTurn calls { world := {} } = some (outcomes, s) →
      s.memo = none ∧
      ((∀ call ∈ calls, ¬ call.site.Abandons) →
        ∀ session ∈ s.world.sessions, ∃ code, session.child.exit = some code) ∧
      List.Forall₂ (fun call outcome => call.alone = some outcome ∧
        outcome.world.written.Sublist (Diagram.lines (codes .mermaid call.documents)) ∧
        ∀ session ∈ outcome.world.sessions,
          (∃ code, session.child.exit = some code) ↔ ¬ call.site.Abandons)
        calls outcomes := by
  have hturn : inTurn calls { world := {} } = (calls.mapM Call.alone).map fun outcomes =>
      (outcomes, { loop := calls.length, memo := none, world := allRun outcomes }) := by
    rw [inTurn_eq calls (s := { world := {} }) rfl]
    simp only [Nat.zero_add, World.empty_append]
  refine ⟨hturn, fun outcomes s h => ?_⟩
  rw [hturn] at h
  obtain ⟨found, hfound, heq⟩ := Option.map_eq_some_iff.mp h
  obtain ⟨rfl, rfl⟩ := Prod.mk.inj heq
  have halone := forall₂_of_mapM hfound
  refine ⟨rfl, fun hkept session hsession => ?_, ?_⟩
  · obtain ⟨outcome, houtcome, hmem⟩ := mem_sessions_allRun.mp hsession
    obtain ⟨call, hcall, hends⟩ := exists_call_of_mem halone houtcome
    exact (Call.exited_iff hends hmem).mpr (hkept call hcall)
  · refine halone.imp fun call outcome h => ⟨h, Call.written_sublist h, ?_⟩
    exact fun session hsession => Call.exited_iff h hsession

section

open scoped Host.Usual

theorem not_abandons_echoSite : ¬ echoSite.Abandons := by
  obtain ⟨session, noted, hready⟩ := connect_echo
  exact Site.not_abandons_of_connect rfl rfl hready nofun

/-- Two calls that lint the same documents, and between them one with a configuration that makes no
sense. -/
def threeCalls : List Call :=
  [⟨echoSite, [], twoDocuments⟩, ⟨echoSite, [("mermaid-syntax", .str "on")], twoDocuments⟩,
    ⟨echoSite, [], twoDocuments⟩]

theorem calls_isolated_threeCalls : ∃ outcomes s,
    inTurn threeCalls { world := {} } = some (outcomes, s) ∧ s.memo = none ∧
    (∀ session ∈ s.world.sessions, ∃ code, session.child.exit = some code) ∧
    outcomes.map some = threeCalls.map Call.alone := by
  obtain ⟨outcome, hlint⟩ := lint_twoDocuments
  have halone : threeCalls.mapM Call.alone =
      some [outcome, ⟨.error (.config (.options "mermaid-syntax" (.str "on"))), [], {}⟩,
        outcome] := by
    simp only [threeCalls, List.mapM_cons, Call.alone, hlint]
    rfl
  obtain ⟨hturn, hafter⟩ := calls_isolated threeCalls
  rw [halone] at hturn
  obtain ⟨hmemo, hexited, hsame⟩ := hafter _ _ hturn
  have hkept : ∀ call ∈ threeCalls, ¬ call.site.Abandons := by
    intro call hcall
    simp only [threeCalls, List.mem_cons, List.not_mem_nil, or_false] at hcall
    obtain rfl | rfl | rfl := hcall <;> exact not_abandons_echoSite
  refine ⟨_, _, hturn, hmemo, hexited hkept, ?_⟩
  simp only [threeCalls, List.map_cons, List.map_nil, Call.alone, hlint]
  rfl

/-- A site at which every session says behind a line that is too long that it is ready. -/
def paddedSite : Site :=
  { launch := fun _ => .ok Handshake.paddedBehaviour
    runScript := fun _ _ => .refused "no such program" }

theorem garbled_paddedBehaviour :
    Session.Garbled (Child.start Handshake.paddedBehaviour) (.overlong true) :=
  ⟨[], .line Session.padding, _, Child.pieces_cons Handshake.unread_paddedBehaviour, by simp,
    Session.read?_padding⟩

theorem steady_paddedSite (rules : List (Rule × Options)) : Steady paddedSite rules
    (failingVerdict paddedSite (.value (.overlong true))) := by
  refine steady_of_failing (fun w _ => Site.start_eq_value_iff.mpr ?_) (fun _ _ _ => rfl) rules
  obtain ⟨settings, hsettings⟩ : ∃ settings, paddedSite.settings? = .ok settings := ⟨_, rfl⟩
  exact ⟨settings, Handshake.paddedBehaviour, hsettings, rfl, garbled_paddedBehaviour⟩

/-- A call there comes to an end and leaves its process running, although all that the process says
is that it is ready. -/
theorem overlong_greeting_left_running : ∃ outcome s,
    inTurn [⟨paddedSite, [], oneDiagram⟩] { world := {} } = some ([outcome], s) ∧ s.memo = none ∧
    ∃ session ∈ s.world.sessions, session.child.exit = none := by
  obtain ⟨outcome, hlint, -⟩ :=
    lint_of_steady enabled_bothRules (steady_paddedSite bothRules) oneDiagram
  have hended := ended_of_lint rfl rfl hlint
  have hasked : askedDiagrams (some {}) oneDiagram ≠ [] := by decide +kernel
  have habandons : paddedSite.Abandons := ⟨_, _, rfl, rfl, garbled_paddedBehaviour⟩
  obtain ⟨session, hsession⟩ := hended.exists_session hasked rfl rfl
  have hturn := inTurn_eq [⟨paddedSite, [], oneDiagram⟩] (s := { world := {} }) rfl
  simp only [List.mapM_cons, List.mapM_nil, Call.alone, hlint] at hturn
  refine ⟨outcome, _, hturn, rfl, session, ?_, ?_⟩
  · exact mem_sessions_allRun.mpr ⟨outcome, List.mem_singleton_self _, hsession⟩
  · have hexit := mt (hended.exited_iff hsession).mp (not_not.mpr habandons)
    rwa [← Option.ne_none_iff_exists', not_not] at hexit

end

end Lint

end FragmentLint
