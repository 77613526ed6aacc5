import FragmentLint.Proofs.StartupMemo
import Mathlib.Data.List.Induction

/-!
# The start-up that is kept

A start-up is kept from the call that began it until the session is closed, whatever loops run
in the meantime. So that one is kept tells of a call in some loop, which need not be the loop
that runs.

Closing lets go of the start-up in any case. What comes of closing depends on what came of the
start-up, but only in the loop that made it.
-/
namespace FragmentLint

variable {ω : Type}

namespace Shared

variable {s : Shared ω}

def owner? (s : Shared ω) : Option Nat :=
  s.memo.map Memo.loop

theorem isSome_owner? : s.owner?.isSome = s.started :=
  Option.isSome_map

theorem owner?_of_current? {startup : Startup} (h : s.current? = some startup) :
    s.owner? = some s.loop := by
  rw [owner?, current?_eq_some_iff.mp h]
  rfl

end Shared

namespace Act

def isCall : Act ω → Bool
  | .session | .sessions (_ + 1) | .cancel => true
  | .sessions 0 | .leave _ | .close | .enter _ | .change .. | .finish .. => false

def isClose : Act ω → Bool
  | .close => true
  | _ => false

theorem isClose_of_isCall {a : Act ω} (h : a.isCall = true) : a.isClose = false := by
  cases a with
  | close => cases h
  | _ => rfl

end Act

/-- Behind a call the current epoch is one of the loop that runs, and behind a closing there is
none; no other act ends it. -/
theorem Clock.current_tick (c : Clock) (a : Act ω) :
    (c.tick a).current =
      if a.isCall then some c.loop else if a.isClose then none else c.current := by
  cases a with
  | session => exact (Usage.current_call c).1
  | cancel => exact (Usage.current_call c).1
  | sessions n =>
    cases n with
    | zero => rfl
    | succ n => exact (Usage.current_call c).1
  | _ => rfl

namespace Usage

variable {k : Keeper ω} {u : Usage ω} {acts : List (Act ω)}

/-- An act is a call that finds no start-up of the loop that runs, and so begins one there. -/
def Begins (u : Usage ω) (a : Act ω) (loop : Nat) : Prop :=
  a.isCall = true ∧ u.shared.current? = none ∧ u.shared.loop = loop

/-- Some act began a start-up in a given loop, and the session was not closed since. -/
def Initiated (k : Keeper ω) (u : Usage ω) (acts : List (Act ω)) (loop : Nat) : Prop :=
  ∃ before a behind, acts = before ++ a :: behind ∧ (u.run k before).Begins a loop ∧
    ∀ b ∈ behind, b.isClose = false

theorem run_concat (k : Keeper ω) (u : Usage ω) (acts : List (Act ω)) (a : Act ω) :
    u.run k (acts ++ [a]) = (u.run k acts).after k a := by
  simp [run]

@[simp] theorem not_initiated_nil {loop : Nat} : ¬ Initiated k u [] loop := by
  rintro ⟨before, a, behind, heq, -⟩
  simp at heq

/-- The last act of a history begins a start-up, or it leaves the one that was begun. -/
theorem initiated_concat {a : Act ω} {loop : Nat} :
    Initiated k u (acts ++ [a]) loop ↔
      (u.run k acts).Begins a loop ∨ a.isClose = false ∧ Initiated k u acts loop := by
  constructor
  · rintro ⟨before, b, behind, heq, hbegins, hclose⟩
    obtain rfl | ⟨more, last, rfl⟩ := behind.eq_nil_or_concat
    · obtain ⟨rfl, hlast⟩ := List.append_inj' heq rfl
      obtain rfl := List.singleton_inj.mp hlast
      exact .inl hbegins
    · have heq' : acts ++ [a] = (before ++ b :: more) ++ [last] := by simpa using heq
      obtain ⟨rfl, hlast⟩ := List.append_inj' heq' rfl
      obtain rfl := List.singleton_inj.mp hlast
      exact .inr ⟨hclose a (by simp), before, b, more, rfl, hbegins,
        fun c hc => hclose c (by simp [hc])⟩
  · rintro (hbegins | ⟨hopen, before, b, behind, rfl, hbegins, hclose⟩)
    · exact ⟨acts, a, [], rfl, hbegins, by simp⟩
    · refine ⟨before, b, behind ++ [a], by simp, hbegins, fun c hc => ?_⟩
      obtain hc | hc := List.mem_append.mp hc
      · exact hclose c hc
      · rwa [List.mem_singleton.mp hc]

theorem Kept.owner? {starts : Nat} (h : Kept starts u) : u.shared.owner? = u.clock.current := by
  obtain ⟨hcurrent, hmemo⟩ | ⟨before, e, loop, -, hcurrent, hmemo⟩ := h.memo
  · rw [Shared.owner?, hmemo, hcurrent]
    rfl
  · rw [Shared.owner?, hmemo, hcurrent]
    rfl

/-- Behind a call the start-up of the loop that runs is kept, and none behind a closing; no other
act changes whose start-up is kept. -/
theorem Kept.owner?_after {starts : Nat} (h : Kept starts u) (a : Act ω) :
    (u.after k a).shared.owner? =
      if a.isCall then some u.shared.loop else if a.isClose then none else u.shared.owner? := by
  rw [(h.after (k := k) a).owner?, clock_after, Clock.current_tick, h.loop, h.owner?]

/-- What is kept was begun by a call in the loop that owns it. -/
theorem initiated_of_owner? {loop : Nat} {f : Factory ω} {l : Nat}
    (h : ((fresh loop f).run k acts).shared.owner? = some l) :
    Initiated k (fresh loop f) acts l := by
  induction acts using List.reverseRecOn with
  | nil => cases h
  | append_singleton acts a ih =>
    rw [run_concat, ((kept_fresh loop f).run acts).owner?_after] at h
    rw [initiated_concat]
    cases hcall : a.isCall with
    | true =>
      rw [if_pos hcall] at h
      obtain rfl := Option.some.inj h
      cases hcurrent : ((fresh loop f).run k acts).shared.current? with
      | none => exact .inl ⟨hcall, hcurrent, rfl⟩
      | some startup =>
        exact .inr ⟨Act.isClose_of_isCall hcall, ih (Shared.owner?_of_current? hcurrent)⟩
    | false =>
      cases hclose : a.isClose with
      | true => simp [hcall, hclose] at h
      | false => exact .inr ⟨rfl, ih (by simpa [hcall, hclose] using h)⟩

theorem started_of_initiated {loop : Nat} {f : Factory ω} {l : Nat}
    (h : Initiated k (fresh loop f) acts l) :
    ((fresh loop f).run k acts).shared.started = true := by
  induction acts using List.reverseRecOn with
  | nil => exact absurd h not_initiated_nil
  | append_singleton acts a ih =>
    rw [run_concat, ← Shared.isSome_owner?, ((kept_fresh loop f).run acts).owner?_after]
    obtain ⟨hcall, -⟩ | ⟨hopen, hinitiated⟩ := initiated_concat.mp h
    · rw [if_pos hcall]
      rfl
    · have hprior := ih hinitiated
      rw [← Shared.isSome_owner?] at hprior
      split
      · rfl
      · rw [if_neg (by simp [hopen]), hprior]

theorem started_iff_initiated (k : Keeper ω) (loop : Nat) (f : Factory ω) (acts : List (Act ω)) :
    ((fresh loop f).run k acts).shared.started = true ↔
      ∃ l, Initiated k (fresh loop f) acts l := by
  constructor
  · intro hstarted
    rw [← Shared.isSome_owner?, Option.isSome_iff_exists] at hstarted
    obtain ⟨l, hl⟩ := hstarted
    exact ⟨l, initiated_of_owner? hl⟩
  · rintro ⟨l, hl⟩
    exact started_of_initiated hl

/-- Acts that enter no other loop leave the loop that runs. -/
theorem loop_run (k : Keeper ω) (u : Usage ω) {acts : List (Act ω)}
    (hacts : ∀ l, .enter l ∈ acts → l = u.shared.loop) :
    (u.run k acts).shared.loop = u.shared.loop := by
  induction acts using List.reverseRecOn with
  | nil => rfl
  | append_singleton acts a ih =>
    have hprior := ih fun l hl => hacts l (List.mem_append_left _ hl)
    rw [run_concat]
    have hchange := (u.run k acts).change_after k a
    generalize (u.run k acts).after k a = v at hchange ⊢
    cases hchange with
    | same => exact hprior
    | called => exact Shared.loop_begin.trans hprior
    | left => exact hprior
    | closed => exact hprior
    | @entered l => exact hacts l (by simp)
    | changed => exact hprior
    | @settled i valid outcome =>
      exact (((u.run k acts).settled_shared i valid outcome).1).trans hprior

/-- While no other loop is entered, start-ups begin in the loop that runs. -/
theorem loop_of_initiated {before behind : List (Act ω)} {l : Nat}
    (hbefore : ∀ l, ¬ Initiated k u before l)
    (hbehind : ∀ l, .enter l ∈ behind → l = (u.run k before).shared.loop)
    (h : Initiated k u (before ++ behind) l) : l = (u.run k before).shared.loop := by
  induction behind using List.reverseRecOn with
  | nil => exact absurd (List.append_nil before ▸ h) (hbefore l)
  | append_singleton behind a ih =>
    have hprior : ∀ l, .enter l ∈ behind → l = (u.run k before).shared.loop :=
      fun l hl => hbehind l (List.mem_append_left _ hl)
    rw [← List.append_assoc, initiated_concat] at h
    obtain ⟨-, -, hloop⟩ | ⟨-, hinitiated⟩ := h
    · rw [run, List.foldl_append] at hloop
      exact hloop ▸ loop_run k (u.run k before) hprior
    · exact ih hprior hinitiated

/-- A start-up is kept just if a call began one, in whatever loop, since the session was last
closed. One that callers find was begun in the loop that runs. While no other loop was entered
since nothing was kept, what is kept is what was begun in the loop that runs. -/
theorem started_tells_calls (k : Keeper ω) (loop : Nat) (f : Factory ω) (acts : List (Act ω)) :
    let u := (fresh loop f).run k acts
    let begun := Initiated k (fresh loop f) acts
    (u.shared.started = true ↔ ∃ l, begun l) ∧
    (u.shared.current?.isSome = true → begun u.shared.loop) ∧
    (∀ before behind, acts = before ++ behind →
      ((fresh loop f).run k before).shared.started = false →
      (∀ l, .enter l ∈ behind → l = ((fresh loop f).run k before).shared.loop) →
      (u.shared.started = true ↔ begun u.shared.loop)) := by
  intro u begun
  refine ⟨started_iff_initiated k loop f acts, ?_, ?_⟩
  · intro hfound
    obtain ⟨startup, hcurrent⟩ := Option.isSome_iff_exists.mp hfound
    exact initiated_of_owner? (Shared.owner?_of_current? hcurrent)
  · rintro before behind rfl hclosed hstays
    have hnone : ∀ l, ¬ Initiated k (fresh loop f) before l := by
      intro l hl
      rw [started_of_initiated hl] at hclosed
      cases hclosed
    have hloop : u.shared.loop = ((fresh loop f).run k before).shared.loop := by
      have hrun : u = ((fresh loop f).run k before).run k behind := List.foldl_append
      rw [hrun]
      exact loop_run k _ hstays
    constructor
    · intro hstarted
      obtain ⟨l, hl⟩ := (started_iff_initiated k loop f (before ++ behind)).mp hstarted
      rw [hloop, ← loop_of_initiated hnone hstays hl]
      exact hl
    · exact started_of_initiated

/-- Sessions that are never asked, and need nothing. -/
def idleKeeper : Keeper Unit where
  start _ := (.pending, [], ())
  request _ _ _ := none
  close _ _ := ([], ())
  kill _ _ := ()

theorem defaultExecutable_ne_nil : Settings.defaultExecutable ≠ [] := by
  decide

theorem untimed_ok : (none : Option Number).all (!·.isNonpositive) = true :=
  rfl

/-- What starts sessions so that the same comes of every start. -/
def alwaysFactory (startup : Startup) : Factory Unit where
  settings := .ok ⟨Settings.defaultExecutable, none, none, defaultExecutable_ne_nil, untimed_ok⟩
  make _ _ := (startup, [], ())
  world := ()

/-- A session that is up stays the one that is kept when another loop is entered, in which nobody
has called. -/
theorem started_in_other_loop :
    let u := (fresh 0 (alwaysFactory (.live 0))).run idleKeeper [.session, .enter 1]
    u.shared.started = true ∧ u.shared.loop = 1 ∧
      ¬ Initiated idleKeeper (fresh 0 (alwaysFactory (.live 0))) [.session, .enter 1] 1 := by
  refine ⟨rfl, rfl, ?_⟩
  have hsplit : ([.session, .enter 1] : List (Act Unit)) = ([] ++ [.session]) ++ [.enter 1] := rfl
  rw [hsplit, initiated_concat, initiated_concat]
  rintro (⟨hcall, -⟩ | ⟨-, ⟨-, -, hloop⟩ | ⟨-, hnil⟩⟩)
  · cases hcall
  · cases hloop
  · exact not_initiated_nil hnil

end Usage

namespace Startup

/-- What comes of closing where callers would find a given start-up, or none. -/
def closing? : Option Startup → Option (Except Fault Unit)
  | none | some (.live _) | some (.failed (.bridge _)) => some (.ok ())
  | some .pending => none
  | some (.failed fault) => some (.error fault)

variable {startup : Startup}

theorem closing?_eq_none_iff : closing? (some startup) = none ↔ startup = .pending := by
  cases startup with
  | failed fault => cases fault <;> simp [closing?]
  | _ => simp [closing?]

theorem closing?_eq_error_iff {fault : Fault} : closing? (some startup) = some (.error fault) ↔
    startup = .failed fault ∧ ∀ b, fault ≠ .bridge b := by
  cases startup with
  | failed found => cases found <;> simp +contextual [closing?, eq_comm]
  | _ => simp [closing?]

theorem closing?_eq_ok_iff : closing? (some startup) = some (.ok ()) ↔
    (∃ n, startup = .live n) ∨ ∃ b, startup = .failed (.bridge b) := by
  cases startup with
  | failed fault => cases fault <;> simp [closing?]
  | _ => simp [closing?]

end Startup

theorem Shared.close_eq (k : Keeper ω) (s : Shared ω) :
    (s.close k).1 = Startup.closing? s.current? := by
  unfold close current?
  cases s.memo with
  | none => rfl
  | some memo =>
    obtain ⟨loop, startup⟩ := memo
    by_cases hloop : loop = s.loop
    · simp only [hloop, if_true]
      cases startup with
      | pending => rfl
      | live n => rfl
      | failed fault => cases fault <;> rfl
    · simp only [hloop, if_false]
      rfl

namespace Usage

variable {k : Keeper ω} {u : Usage ω}

/-- The last epoch has not ended, and the loop that runs is its own. -/
def Owns (u : Usage ω) (e : Epoch) : Prop :=
  u.clock.current = some u.clock.loop ∧ u.epochs.getLast? = some e

/-- Callers find the start-up of the epoch that the loop owns. -/
theorem Kept.current?_eq_some_iff {starts : Nat} (h : Kept starts u) {startup : Startup} :
    u.shared.current? = some startup ↔ ∃ e, u.Owns e ∧ e.startup = startup := by
  rw [Shared.current?_eq_some_iff]
  simp only [Owns, h.loop]
  obtain ⟨hcurrent, hmemo⟩ | ⟨before, last, loop, hepochs, hcurrent, hmemo⟩ := h.memo
  · simp [hcurrent, hmemo]
  · simp [hcurrent, hmemo, hepochs]

theorem Kept.current?_eq_none_iff {starts : Nat} (h : Kept starts u) :
    u.shared.current? = none ↔ ∀ e, ¬ u.Owns e := by
  rw [Option.eq_none_iff_forall_ne_some]
  simp only [ne_eq, h.current?_eq_some_iff, not_exists, not_and]
  exact ⟨fun hnone e he => hnone _ e he rfl, fun hnone _ e he => absurd he (hnone e)⟩

/-- How closing ends, and what it leaves. -/
structure Closes (k : Keeper ω) (u : Usage ω) : Prop where
  /-- However closing ends, nothing is kept. -/
  cleared : (u.after k .close).shared.started = false
  /-- It does not end while the start-up that the loop owns has not. -/
  waits : (u.shared.close (Factory.keeper k)).1 = none ↔ ∃ e, u.Owns e ∧ e.startup = .pending
  /-- A fault is raised again if it ended the start-up that the loop owns and is none of a
  bridge. -/
  raises : ∀ fault, (u.shared.close (Factory.keeper k)).1 = some (.error fault) ↔
    ∃ e, u.Owns e ∧ e.startup = .failed fault ∧ ∀ b, fault ≠ .bridge b
  /-- In every other case closing returns, and always where the loop owns no start-up. -/
  returns : (u.shared.close (Factory.keeper k)).1 = some (.ok ()) ↔
    ∀ e, u.Owns e → (∃ n, e.startup = .live n) ∨ ∃ b, e.startup = .failed (.bridge b)

theorem Owns.exists_iff {e : Epoch} (h : u.Owns e) {P : Epoch → Prop} :
    (∃ e', u.Owns e' ∧ P e') ↔ P e := by
  constructor
  · rintro ⟨e', h', hP⟩
    obtain rfl := Option.some.inj (h.2.symm.trans h'.2)
    exact hP
  · exact fun hP => ⟨e, h, hP⟩

theorem Owns.forall_iff {e : Epoch} (h : u.Owns e) {P : Epoch → Prop} :
    (∀ e', u.Owns e' → P e') ↔ P e := by
  constructor
  · exact fun hall => hall e h
  · intro hP e' h'
    obtain rfl := Option.some.inj (h.2.symm.trans h'.2)
    exact hP

/-- Closing looks at what callers would find, and at nothing else of a history. -/
theorem Kept.closes {starts : Nat} (h : Kept starts u) : Closes k u := by
  have hcleared : (u.after k .close).shared.started = false := by
    rw [← Shared.isSome_owner?, h.owner?_after]
    rfl
  have hclose := Shared.close_eq (Factory.keeper k) u.shared
  cases hcurrent : u.shared.current? with
  | none =>
    have hnone := h.current?_eq_none_iff.mp hcurrent
    rw [hcurrent, Startup.closing?] at hclose
    exact ⟨hcleared, by simp [hclose, hnone], by simp [hclose, hnone], by simp [hclose, hnone]⟩
  | some startup =>
    obtain ⟨e, howns, rfl⟩ := h.current?_eq_some_iff.mp hcurrent
    rw [hcurrent] at hclose
    constructor
    case cleared => exact hcleared
    case waits => rw [howns.exists_iff, hclose, Startup.closing?_eq_none_iff]
    case raises =>
      intro fault
      rw [howns.exists_iff, hclose, Startup.closing?_eq_error_iff]
    case returns => rw [howns.forall_iff, hclose, Startup.closing?_eq_ok_iff]

/-- However a shared session was used, closing leaves none. It returns, whatever came of the
start-up, in every loop but the one that made it; and there too unless a fault that is none of a
bridge ended the start-up, which is raised again. -/
theorem closes_after_any_use (k : Keeper ω) (loop : Nat) (f : Factory ω) (acts : List (Act ω)) :
    Closes k ((fresh loop f).run k acts) :=
  ((kept_fresh loop f).run acts).closes

/-- A defect of what starts the sessions is raised again when the session is closed, but not when
it is closed in another loop. -/
theorem defect_raised_at_closing :
    let u := (fresh 0 (alwaysFactory (.failed (.defect ⟨"ValueError", "odd"⟩)))).run idleKeeper
      [.session]
    (u.shared.close (Factory.keeper idleKeeper)).1 =
        some (.error (.defect ⟨"ValueError", "odd"⟩)) ∧
      ((u.after idleKeeper (.enter 1)).shared.close (Factory.keeper idleKeeper)).1 =
        some (.ok ()) :=
  ⟨rfl, rfl⟩

end Usage

end FragmentLint
