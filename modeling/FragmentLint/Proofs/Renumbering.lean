import FragmentLint.Lint.Documents

/-!
# Runs behind other runs

Processes are numbered by the attempts to start them, and sessions by their place among those that
were started. What a run does depends on these numbers only as names: behind another world, at a
site whose processes are counted from there, every step does the same to the part of the world that
is its own, and leaves the rest as it is. This is shown for each operation on the world, then for
the parsers, and from there it carries over to the runs of rules over documents.
-/
namespace FragmentLint

namespace World

/-- A world, and what was run behind it. -/
instance : Append World :=
  ⟨fun w v => ⟨w.spawns ++ v.spawns, w.sessions ++ v.sessions, w.inputs ++ v.inputs⟩⟩

theorem append_def (w v : World) :
    w ++ v = ⟨w.spawns ++ v.spawns, w.sessions ++ v.sessions, w.inputs ++ v.inputs⟩ := rfl

@[simp] theorem sessions_append (w v : World) : (w ++ v).sessions = w.sessions ++ v.sessions := rfl

@[simp] theorem append_empty (w : World) : w ++ ({} : World) = w := by
  simp only [append_def, List.append_nil]

@[simp] theorem empty_append (w : World) : ({} : World) ++ w = w := rfl

theorem append_assoc (u v w : World) : u ++ v ++ w = u ++ (v ++ w) := by
  simp only [append_def, List.append_assoc]

@[simp] theorem attempts_append (w v : World) (f : Family) :
    (w ++ v).attempts f = w.attempts f + v.attempts f := by
  simp [attempts, append_def]

theorem session_behind (w v : World) (n : Nat) :
    (w ++ v).sessions[w.sessions.length + n]? = v.sessions[n]? := by
  rw [sessions_append, List.getElem?_append_right (Nat.le_add_right _ _), Nat.add_sub_cancel_left]

theorem set_behind (w v : World) (n : Nat) (session : Session) :
    ({ w ++ v with sessions := (w ++ v).sessions.set (w.sessions.length + n) session } : World) =
      w ++ { v with sessions := v.sessions.set n session } := by
  simp only [append_def, List.set_append_right _ _ (Nat.le_add_right _ _), Nat.add_sub_cancel_left]

end World

namespace Startup

/-- A start-up whose session stands behind a number of others. -/
def behind (count : Nat) : Startup → Startup
  | .live n => .live (count + n)
  | startup => startup

theorem outcome?_behind (count : Nat) (startup : Startup) :
    Shared.outcome? (startup.behind count) =
      (Shared.outcome? startup).map (Except.map (count + ·)) := by
  cases startup <;> rfl

end Startup

namespace Site

/-- The site as a run sees it that counts its processes from a world on. -/
def behind (site : Site) (w : World) : Site :=
  { site with
    launch := fun n => site.launch (n - w.attempts .mermaid)
    runScript := fun n => site.runScript (n - w.attempts .math) }

@[simp] theorem settings?_behind (site : Site) (w : World) :
    (site.behind w).settings? = site.settings? := rfl

theorem launch_behind (site : Site) (w v : World) :
    (site.behind w).launch ((w ++ v).attempts .mermaid) = site.launch (v.attempts .mermaid) := by
  simp [behind]

theorem runScript_behind (site : Site) (w v : World) :
    (site.behind w).runScript ((w ++ v).attempts .math) = site.runScript (v.attempts .math) := by
  simp [behind]

theorem start_behind [Host] (site : Site) (w v : World) :
    (site.behind w).start (w ++ v) =
      ((site.start v).1.behind w.sessions.length, (site.start v).2.1,
        w ++ (site.start v).2.2) := by
  simp only [start, settings?_behind]
  cases site.settings? with
  | error fault => rfl
  | ok settings =>
    simp only [startSession, launch_behind]
    cases site.launch (v.attempts .mermaid) with
    | error reason => simp [Startup.behind, World.append_def]
    | ok behaviour =>
      cases hconnect : Session.connect (Child.start behaviour) settings.timeout with
      | none => simp [Startup.behind, World.append_def, hconnect]
      | some r =>
        obtain ⟨outcome, session, noted⟩ := r
        cases outcome <;> simp [Startup.behind, World.append_def, hconnect]

theorem request_behind [Host] (w v : World) (n : Nat) (payload : Json.Members) :
    request (w.sessions.length + n) payload (w ++ v) =
      (request n payload v).map fun (answer, v) => (answer, w ++ v) := by
  simp only [request, World.session_behind, World.set_behind]
  cases v.sessions[n]? with
  | none => rfl
  | some session =>
    rw [Option.map_map]
    rfl

theorem close_behind (w v : World) (n : Nat) :
    close (w.sessions.length + n) (w ++ v) = ((close n v).1, w ++ (close n v).2) := by
  simp only [close, World.session_behind, World.set_behind]
  cases v.sessions[n]? <;> rfl

theorem kill_behind (w v : World) (n : Nat) :
    kill (w.sessions.length + n) (w ++ v) = w ++ kill n v := by
  simp only [kill, World.session_behind, World.set_behind]
  cases v.sessions[n]? <;> rfl

theorem runOnce_behind [Host] (site : Site) (payload : Json.Members) (settings : Settings)
    (w v : World) :
    (site.behind w).runOnce payload settings (w ++ v) =
      ((site.runOnce payload settings v).1, w ++ (site.runOnce payload settings v).2) := by
  simp only [runOnce, runScript_behind]
  simp [World.append_def]

end Site

namespace Shared

/-- A shared session whose world stands behind another one, in a later loop. -/
def behind (loop : Nat) (w : World) (s : Shared World) : Shared World where
  loop := loop + s.loop
  memo := s.memo.map fun memo => ⟨loop + memo.loop, memo.startup.behind w.sessions.length⟩
  world := w ++ s.world

variable (loop : Nat) (w : World) (site : Site) (s : Shared World)

theorem current?_behind :
    (s.behind loop w).current? = s.current?.map (Startup.behind w.sessions.length) := by
  unfold current? behind
  cases s.memo with
  | none => rfl
  | some memo =>
    simp only [Option.map_some, Nat.add_left_cancel_iff]
    split <;> rfl

theorem abandon_behind [Host] (startup : Startup) (v : World) :
    abandon (site.behind w).keeper (startup.behind w.sessions.length) (w ++ v) =
      ((abandon site.keeper startup v).1, w ++ (abandon site.keeper startup v).2) := by
  cases startup with
  | live n => exact congrArg (Prod.mk _) (Site.kill_behind w v n)
  | pending => rfl
  | failed fault => rfl

theorem begin_behind [Host] :
    (s.behind loop w).begin (site.behind w).keeper =
      ((s.begin site.keeper).1.behind w.sessions.length, (s.begin site.keeper).2.1,
        (s.begin site.keeper).2.2.behind loop w) := by
  have hstart : ∀ v, (site.behind w).keeper.start (w ++ v) =
      ((site.keeper.start v).1.behind w.sessions.length, (site.keeper.start v).2.1,
        w ++ (site.keeper.start v).2.2) := site.start_behind w
  simp only [begin, current?_behind]
  cases s.current? with
  | some startup => rfl
  | none =>
    simp only [Option.map_none, behind]
    cases s.memo with
    | none => simp only [Option.map_none, hstart]; rfl
    | some memo => simp only [Option.map_some, abandon_behind, hstart]

theorem close_behind [Host] :
    (s.behind loop w).close (site.behind w).keeper =
      ((s.close site.keeper).1, (s.close site.keeper).2.1,
        (s.close site.keeper).2.2.behind loop w) := by
  have hclose : ∀ n v, (site.behind w).keeper.close (w.sessions.length + n) (w ++ v) =
      ((site.keeper.close n v).1, w ++ (site.keeper.close n v).2) :=
    fun n v => Site.close_behind w v n
  simp only [close, behind]
  cases s.memo with
  | none => rfl
  | some memo =>
    simp only [Option.map_some, Nat.add_left_cancel_iff]
    split
    · cases memo.startup with
      | pending => rfl
      | failed fault => cases fault <;> rfl
      | live n => simp only [Startup.behind, hclose]; rfl
    · simp only [abandon_behind]; rfl

end Shared

namespace Checked

def mapState {σ τ : Type} (f : σ → τ) (answer : Checked σ) : Checked τ :=
  ⟨answer.verdict, answer.notices, f answer.state⟩

end Checked

/-- A parser does in the image of a state what another one does in the state itself. -/
structure Checker.Follows {σ τ : Type} (f : σ → τ) (c : Checker σ) (d : Checker τ) : Prop where
  name : d.name = c.name
  concurrent : d.concurrent = c.concurrent
  check : ∀ code s, d.check code (f s) = (c.check code s).map (Checked.mapState f)

namespace Diagram

variable (loop : Nat) (w : World) (site : Site)

theorem parse_behind [Host] (code : Text) (s : Shared World) :
    parse (site.behind w).keeper code (s.behind loop w) =
      (parse site.keeper code s).map fun (outcome, noted, t) =>
        (outcome, noted, t.behind loop w) := by
  have hrequest : ∀ n v, (site.behind w).keeper.request (w.sessions.length + n) (payload code)
      (w ++ v) = (site.keeper.request n (payload code) v).map fun (answer, v) => (answer, w ++ v) :=
    fun n v => Site.request_behind w v n (payload code)
  simp only [parse, Shared.session, Shared.begin_behind, Startup.outcome?_behind]
  cases hup : Shared.outcome? (s.begin site.keeper).1 with
  | none => rfl
  | some found =>
    cases found with
    | error fault => rfl
    | ok n =>
      simp only [Option.map_some, Except.map, Shared.behind, hrequest]
      cases site.keeper.request n (payload code) (s.begin site.keeper).2.2.world with
      | none => rfl
      | some r => rfl

theorem follows_behind [Host] :
    Checker.Follows (Shared.behind loop w) (checker site.keeper)
      (checker (site.behind w).keeper) where
  name := rfl
  concurrent := rfl
  check := by
    intro code s
    show check _ _ _ = Option.map _ (check _ _ _)
    simp only [check, parse_behind]
    cases parse site.keeper code s <;> rfl

end Diagram

namespace Formula

theorem check_behind [Host] (site : Site) (options : Options) (code : Text) (w v : World) :
    check (site.behind w) options code (w ++ v) =
      (check site options code v).mapState (w ++ ·) := by
  simp only [check, parse, Site.settings?_behind]
  cases site.settings? with
  | error fault => rfl
  | ok settings =>
    simp only [Site.runOnce_behind]
    cases (site.runOnce (payload code options.displayMode options.strict) settings v).1 <;> rfl

end Formula

theorem Rule.follows_behind [Host] (loop : Nat) (w : World) (site : Site) (r : Rule)
    (options : Options) :
    Checker.Follows (Shared.behind loop w) (r.checker site options)
      (r.checker (site.behind w) options) := by
  unfold Rule.checker
  cases r.family with
  | mermaid => exact Diagram.follows_behind loop w site
  | math =>
    refine ⟨rfl, rfl, fun code s => ?_⟩
    simp only [Formula.checker, Option.map_some, Shared.behind, Formula.check_behind]
    rfl

namespace Pipeline

variable {σ τ : Type} {f : σ → τ} {c : Checker σ} {d : Checker τ}

theorem runSync_follows (p : Pipeline) (h : Checker.Follows f c d) (fragments : List Fragment)
    (s : σ) : p.runSync d fragments (f s) =
      (p.runSync c fragments s).map fun (events, t) => (events, f t) := by
  induction fragments generalizing s with
  | nil => rfl
  | cons fragment fragments ih =>
    rw [runSync, runSync]
    cases Precheck.notEmpty p.family fragment with
    | error finding =>
      simp only [ih]
      cases p.runSync c fragments s <;> rfl
    | ok trimmed =>
      simp only [h.check, h.name]
      cases c.check trimmed.code s with
      | none => rfl
      | some answer =>
        simp only [Option.map_some, Option.bind_eq_bind, Option.bind_some, Checked.mapState, ih]
        cases p.runSync c fragments answer.state <;> rfl

theorem serve_follows (h : Checker.Follows f c d) (n : Nat) (slots : List Slot) (s : σ) :
    serve d n slots (f s) = (serve c n slots s).map fun (arrivals, t) => (arrivals, f t) := by
  induction slots generalizing n s with
  | nil => rfl
  | cons slot slots ih =>
    cases slot with
    | settled finding => exact ih (n + 1) s
    | waiting trimmed =>
      simp only [serve, h.check]
      cases c.check trimmed.code s with
      | none => rfl
      | some answer =>
        simp only [Option.map_some, Option.bind_eq_bind, Option.bind_some, Checked.mapState, ih]
        cases serve c (n + 1) slots answer.state <;> rfl

theorem run_follows (p : Pipeline) (h : Checker.Follows f c d) (mode : Mode)
    (fragments : List Fragment) (s : σ) :
    p.run d mode fragments (f s) =
      (p.run c mode fragments s).map fun (events, t) => (events, f t) := by
  simp only [run, h.concurrent]
  split
  · rfl
  · split
    · simp only [runFull, serve_follows h, h.name]
      cases serve c 0 (fragments.map p.slot) s with
      | none => rfl
      | some r =>
        simp only [Option.map_some, Option.bind_eq_bind, Option.bind_some]
        cases p.gather c.name fragments r.1 <;> rfl
    · exact p.runSync_follows h fragments s

end Pipeline

namespace Lint

variable (loop : Nat) (w : World) (site : Site)

theorem runRules_behind [Host] (tokens : List (Token Line)) (rules : List (Rule × Options))
    (s : Shared World) :
    runRules (site.behind w) tokens rules (s.behind loop w) =
      (runRules site tokens rules s).map fun (entries, noted, t) =>
        (entries, noted, t.behind loop w) := by
  induction rules generalizing s with
  | nil => rfl
  | cons r rules ih =>
    obtain ⟨r, options⟩ := r
    simp only [runRules, Rule.run,
      Pipeline.run_follows _ (Rule.follows_behind loop w site r options)]
    cases r.family.pipeline.run (r.checker site options) options.mode
        (r.family.extractor.fragments tokens) s with
    | none => rfl
    | some first =>
      simp only [Option.map_some, Option.bind_eq_bind, Option.bind_some, ih]
      cases runRules site tokens rules first.2 <;> rfl

theorem runDocuments_behind [Host] (rules : List (Rule × Options)) (documents : List (Text × Text))
    (s : Shared World) :
    runDocuments (site.behind w) rules documents (s.behind loop w) =
      (runDocuments site rules documents s).map fun (results, noted, t) =>
        (results, noted, t.behind loop w) := by
  induction documents generalizing s with
  | nil => rfl
  | cons d documents ih =>
    obtain ⟨name, text⟩ := d
    simp only [runDocuments, runRules_behind]
    cases runRules site (Markdown.tokenize text) rules s with
    | none => rfl
    | some first =>
      simp only [Option.map_some, Option.bind_eq_bind, Option.bind_some, ih]
      cases runDocuments site rules documents first.2.2 <;> rfl

theorem closeRules_behind [Host] (rules : List (Rule × Options)) (s : Shared World) :
    closeRules (site.behind w) rules (s.behind loop w) =
      (closeRules site rules s).map fun (closed, noted, t) => (closed, noted, t.behind loop w) := by
  induction rules generalizing s with
  | nil => rfl
  | cons r rules ih =>
    obtain ⟨r, options⟩ := r
    simp only [closeRules, Shared.close_behind]
    split
    · rcases s.close site.keeper with ⟨_ | closed, noted, t⟩
      · rfl
      · cases closed with
        | error fault => rfl
        | ok u =>
          simp only [Option.bind_eq_bind, ih]
          cases closeRules site rules t <;> rfl
    · exact ih s

end Lint

end FragmentLint
