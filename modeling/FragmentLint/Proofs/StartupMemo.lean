import FragmentLint.Proofs.SharedUse

/-!
# One start-up for each epoch

The acts on a shared session tell its epochs: an epoch begins with a call, and ends when the
session is closed or first called in another loop. There is one start for each epoch, and what
came of it is what all callers of that epoch get.
-/
namespace FragmentLint.Usage

variable {ω : Type}

/-- Callers got what came of the start-ups of their epochs, or wait for one that has not come to
an end. -/
structure Recorded (epochs : List Epoch) (seen : List (Nat × Except Fault Nat))
    (waiting : List Nat) : Prop where
  seen : ∀ a ∈ seen, ∃ e, epochs[a.1]? = some e ∧ Shared.outcome? e.startup = some a.2
  waiting : ∀ i ∈ waiting, ∃ e, epochs[i]? = some e ∧ e.startup = .pending

theorem getElem?_of_prefix {epochs later : List Epoch} (h : epochs <+: later) {i : Nat} {e : Epoch}
    (he : epochs[i]? = some e) : later[i]? = some e := by
  obtain ⟨more, rfl⟩ := h
  rw [List.getElem?_append_left (List.getElem?_eq_some_iff.mp he).1]
  exact he

section Recorded

variable {epochs : List Epoch} {seen : List (Nat × Except Fault Nat)} {waiting : List Nat}

theorem Recorded.mono (h : Recorded epochs seen waiting) {later : List Epoch}
    (hprior : epochs <+: later) : Recorded later seen waiting := by
  constructor
  case seen =>
    intro a ha
    obtain ⟨e, he, hgot⟩ := h.seen a ha
    exact ⟨e, getElem?_of_prefix hprior he, hgot⟩
  case waiting =>
    intro i hi
    obtain ⟨e, he, hpending⟩ := h.waiting i hi
    exact ⟨e, getElem?_of_prefix hprior he, hpending⟩

/-- Callers come who get what the start-up of their epoch gives. -/
theorem Recorded.add (h : Recorded epochs seen waiting) {i : Nat} {e : Epoch}
    (he : epochs[i]? = some e) {outcomes : List (Option (Except Fault Nat))}
    (hgot : ∀ outcome ∈ outcomes, outcome = Shared.outcome? e.startup) :
    Recorded epochs (seen ++ (outcomes.filterMap id).map fun outcome => (i, outcome))
      (waiting ++ (outcomes.filter Option.isNone).map fun _ => i) := by
  constructor
  case seen =>
    intro a ha
    obtain hmem | hnew := List.mem_append.mp ha
    · exact h.seen a hmem
    · obtain ⟨outcome, hmem, rfl⟩ := List.mem_map.mp hnew
      obtain ⟨o, ho, rfl⟩ := List.mem_filterMap.mp hmem
      exact ⟨e, he, (hgot _ ho).symm⟩
  case waiting =>
    intro j hj
    obtain hmem | hnew := List.mem_append.mp hj
    · exact h.waiting j hmem
    · obtain ⟨o, ho, rfl⟩ := List.mem_map.mp hnew
      obtain ⟨hmem, hnone⟩ := List.mem_filter.mp ho
      have heq := hgot o hmem
      refine ⟨e, he, ?_⟩
      cases hcase : e.startup with
      | pending => rfl
      | failed fault => simp [heq, hcase, Shared.outcome?] at hnone
      | live n => simp [heq, hcase, Shared.outcome?] at hnone

/-- A start-up that comes to an end reaches those who wait for it, and no one else. -/
theorem Recorded.settle (h : Recorded epochs seen waiting) {i : Nat} {valid : Bool}
    (hpending : epochs[i]? = some ⟨valid, .pending⟩) (outcome : Except Fault Nat) :
    Recorded (epochs.set i ⟨valid, .ofOutcome outcome⟩)
      (seen ++ (waiting.filter (· = i)).map fun e => (e, outcome))
      (waiting.filter (· ≠ i)) := by
  obtain ⟨hi, -⟩ := List.getElem?_eq_some_iff.mp hpending
  have hother : ∀ j, j ≠ i →
      (epochs.set i ⟨valid, .ofOutcome outcome⟩)[j]? = epochs[j]? := by
    intro j hj
    exact List.getElem?_set_ne (Ne.symm hj)
  constructor
  case seen =>
    intro a ha
    obtain hmem | hnew := List.mem_append.mp ha
    · obtain ⟨e, he, hgot⟩ := h.seen a hmem
      have hne : a.1 ≠ i := by
        intro heq
        rw [heq, hpending] at he
        obtain rfl := Option.some.inj he
        simp [Shared.outcome?] at hgot
      exact ⟨e, by rw [hother _ hne]; exact he, hgot⟩
    · obtain ⟨j, hj, rfl⟩ := List.mem_map.mp hnew
      obtain rfl : j = i := by simpa using (List.mem_filter.mp hj).2
      refine ⟨⟨valid, .ofOutcome outcome⟩, List.getElem?_set_self hi, ?_⟩
      cases outcome <;> rfl
  case waiting =>
    intro j hj
    obtain ⟨hmem, hne⟩ := List.mem_filter.mp hj
    rw [hother j (by simpa using hne)]
    exact h.waiting j hmem

end Recorded

/-- The start-up that is kept is that of the last epoch, unless this has ended. -/
def Keeps (memo : Option Memo) (current : Option Nat) (epochs : List Epoch) : Prop :=
  (current = none ∧ memo = none) ∨ ∃ before e loop, epochs = before ++ [e] ∧
    current = some loop ∧ memo = some ⟨loop, e.startup⟩

/-- When a start-up comes to an end, so does the one that is kept if it is the last. -/
theorem Keeps.settle {s : Shared (Factory ω)} {current : Option Nat} {epochs : List Epoch}
    (h : Keeps s.memo current epochs) {i : Nat} (hi : i < epochs.length) (valid : Bool)
    (startup : Startup) :
    Keeps (if i + 1 = epochs.length then s.settle startup else s).memo current
      (epochs.set i ⟨valid, startup⟩) := by
  obtain ⟨hcurrent, hmemo⟩ | ⟨before, e, loop, rfl, hcurrent, hmemo⟩ := h
  · refine .inl ⟨hcurrent, ?_⟩
    split
    · rw [Shared.settle, hmemo]
      rfl
    · exact hmemo
  · have hlength : (before ++ [e]).length = before.length + 1 := List.length_append
    rw [hlength] at hi ⊢
    by_cases hlast : i = before.length
    · subst hlast
      refine .inr ⟨before, ⟨valid, startup⟩, loop, by simp, hcurrent, ?_⟩
      rw [if_pos rfl, Shared.settle, hmemo]
      rfl
    · have hlt : i < before.length := by omega
      refine .inr ⟨before.set i ⟨valid, startup⟩, e, loop, ?_, hcurrent, ?_⟩
      · rw [List.set_append_left _ _ hlt]
      · rw [if_neg (by omega)]
        exact hmemo

/-- What holds of a shared session in use, however it is used. -/
structure Kept (starts : Nat) (u : Usage ω) : Prop where
  loop : u.clock.loop = u.shared.loop
  memo : Keeps u.shared.memo u.clock.current u.epochs
  count : u.epochs.length = u.clock.epochs
  starts : u.shared.world.starts = starts + (u.epochs.map Epoch.valid).count true
  recorded : Recorded u.epochs u.seen u.waiting

theorem kept_fresh (loop : Nat) (f : Factory ω) : Kept f.starts (fresh loop f) where
  loop := rfl
  memo := .inl ⟨rfl, rfl⟩
  count := rfl
  starts := rfl
  recorded := ⟨by simp [fresh], by simp [fresh]⟩

section Kept

variable {k : Keeper ω} {u : Usage ω} {starts : Nat}

/-- A call belongs to the last epoch, and finds or makes the start-up of that. -/
structure Calls (k : Keeper ω) (starts : Nat) (u : Usage ω) (before : List Epoch)
    (e : Epoch) : Prop where
  epochs : u.epochsOfCall k = before ++ [e]
  prior : u.epochs <+: before ++ [e]
  startup : e.startup = (u.shared.begin (Factory.keeper k)).1
  count : before.length + 1 = u.clock.call.epochs
  starts : (u.shared.begin (Factory.keeper k)).2.2.world.starts =
    starts + ((before ++ [e]).map Epoch.valid).count true

/-- In an epoch that has not ended a call finds the start-up and changes nothing. -/
theorem Kept.call_in (h : Kept starts u) (hopen : u.clock.current = some u.clock.loop) :
    (∃ before e, Calls k starts u before e) ∧
      (u.shared.begin (Factory.keeper k)).2.2 = u.shared := by
  obtain ⟨hnone, -⟩ | ⟨before, e, loop, hepochs, hcurrent, hmemo⟩ := h.memo
  · simp [hopen] at hnone
  · have hloop : loop = u.shared.loop := by
      rw [hopen] at hcurrent
      rw [← h.loop]
      exact (Option.some.inj hcurrent).symm
    have hfound : u.shared.current? = some e.startup := by
      rw [Shared.current?_eq_some_iff, hmemo, hloop]
    have hbegin := Shared.begin_of_some (k := Factory.keeper k) hfound
    have hcount := h.count
    rw [hepochs, List.length_append] at hcount
    refine ⟨⟨before, e, ?_, ?_, ?_, ?_, ?_⟩, by rw [hbegin]⟩
    · rw [epochsOfCall, if_pos hopen, hepochs]
    · exact ⟨[], by rw [List.append_nil, hepochs]⟩
    · rw [hbegin]
    · rw [Clock.call, if_pos hopen]
      exact hcount
    · rw [hbegin, ← hepochs]
      exact h.starts

/-- Every other call begins an epoch and a start-up. -/
theorem Kept.call_anew (h : Kept starts u) (hopen : u.clock.current ≠ some u.clock.loop) :
    Calls k starts u u.epochs
      ⟨u.shared.world.settings.isOk, (u.shared.begin (Factory.keeper k)).1⟩ := by
  have hfound : u.shared.current? = none := by
    cases hcurrent : u.shared.current? with
    | none => rfl
    | some startup =>
      rw [Shared.current?_eq_some_iff] at hcurrent
      obtain ⟨-, hmemo⟩ | ⟨before, e, loop, -, hclock, hmemo⟩ := h.memo
      · simp [hcurrent] at hmemo
      · rw [hcurrent] at hmemo
        obtain ⟨hloop, -⟩ := Memo.mk.inj (Option.some.inj hmemo)
        exact absurd (by rw [hclock, h.loop, hloop]) hopen
  obtain ⟨-, hstate⟩ := Shared.begin_of_none (k := Factory.keeper k) hfound
  obtain ⟨hstarts, hsettings⟩ := Factory.cleared_keeper k u.shared
  refine ⟨by rw [epochsOfCall, if_neg hopen], List.prefix_append _ _, rfl, ?_, ?_⟩
  · rw [Clock.call, if_neg hopen, h.count]
  · rw [hstate]
    show ((u.shared.cleared (Factory.keeper k)).start).2.2.starts = _
    rw [Factory.starts_start, hstarts, hsettings, h.starts, List.map_append, List.count_append,
      Nat.add_assoc]
    cases u.shared.world.settings <;> rfl

theorem Kept.exists_calls (h : Kept starts u) : ∃ before e, Calls k starts u before e := by
  by_cases hopen : u.clock.current = some u.clock.loop
  · exact (h.call_in hopen).1
  · exact ⟨_, _, h.call_anew hopen⟩

theorem current_call (c : Clock) : c.call.current = some c.loop ∧ c.call.loop = c.loop := by
  unfold Clock.call
  by_cases h : c.current = some c.loop
  · rw [if_pos h]
    exact ⟨h, rfl⟩
  · rw [if_neg h]
    exact ⟨rfl, rfl⟩

/-- Callers who get what the start-up gives leave a shared session in order. -/
theorem Kept.called (h : Kept starts u) {outcomes : List (Option (Except Fault Nat))}
    (hgot : ∀ outcome ∈ outcomes,
      outcome = Shared.outcome? (u.shared.begin (Factory.keeper k)).1) :
    Kept starts (u.called k outcomes (u.shared.begin (Factory.keeper k)).2.2) := by
  obtain ⟨before, e, hepochs, hprior, hstartup, hcount, hstarts⟩ := h.exists_calls (k := k)
  obtain ⟨hcurrent, hloop⟩ := current_call u.clock
  constructor
  case loop =>
    show u.clock.call.loop = (u.shared.begin (Factory.keeper k)).2.2.loop
    rw [hloop, Shared.loop_begin]
    exact h.loop
  case memo =>
    refine .inr ⟨before, e, u.clock.loop, hepochs, hcurrent, ?_⟩
    show (u.shared.begin (Factory.keeper k)).2.2.memo = _
    rw [Shared.memo_begin, hstartup, h.loop]
  case count =>
    show (u.epochsOfCall k).length = u.clock.call.epochs
    rw [hepochs, List.length_append]
    exact hcount
  case starts =>
    show (u.shared.begin (Factory.keeper k)).2.2.world.starts =
      starts + ((u.epochsOfCall k).map Epoch.valid).count true
    rw [hstarts, hepochs]
  case recorded =>
    have hindex : (before ++ [e]).length - 1 = before.length := by simp
    have hlast : (before ++ [e])[before.length]? = some e := List.getElem?_concat_length
    show Recorded (u.epochsOfCall k) (u.seen ++ _) (u.waiting ++ _)
    rw [hepochs, hindex]
    refine (h.recorded.mono hprior).add hlast fun outcome hmem => ?_
    rw [hstartup]
    exact hgot outcome hmem

theorem valid_set {epochs : List Epoch} {i : Nat} {e : Epoch} (h : epochs[i]? = some e)
    (startup : Startup) :
    (epochs.set i ⟨e.valid, startup⟩).map Epoch.valid = epochs.map Epoch.valid := by
  apply List.ext_getElem?
  intro j
  rw [List.getElem?_map, List.getElem?_map, List.getElem?_set]
  by_cases hij : i = j
  · subst hij
    obtain ⟨hi, rfl⟩ := List.getElem?_eq_some_iff.mp h
    simp [hi]
  · rw [if_neg hij]

theorem Kept.settled (h : Kept starts u) {i : Nat} {valid : Bool}
    (hpending : u.epochs[i]? = some ⟨valid, .pending⟩) (outcome : Except Fault Nat) :
    Kept starts (u.settled i valid outcome) := by
  obtain ⟨hi, -⟩ := List.getElem?_eq_some_iff.mp hpending
  obtain ⟨hloop, hworld⟩ := u.settled_shared i valid outcome
  constructor
  case loop => exact h.loop.trans hloop.symm
  case memo => exact h.memo.settle hi valid (.ofOutcome outcome)
  case count => exact List.length_set.trans h.count
  case starts =>
    show _ = starts + ((u.epochs.set i ⟨valid, .ofOutcome outcome⟩).map Epoch.valid).count true
    rw [hworld, valid_set hpending, h.starts]
  case recorded => exact h.recorded.settle hpending outcome

theorem Kept.after (h : Kept starts u) (a : Act ω) : Kept starts (u.after k a) := by
  have hchange := u.change_after k a
  generalize u.after k a = v at hchange ⊢
  cases hchange with
  | same => exact h
  | called hgot => exact h.called hgot
  | left =>
    obtain ⟨hseen, hwaiting⟩ := h.recorded
    exact ⟨h.loop, h.memo, h.count, h.starts, hseen,
      fun i hi => hwaiting i (List.mem_of_mem_erase hi)⟩
  | closed hstarts _ => exact ⟨h.loop, .inl ⟨rfl, rfl⟩, h.count, hstarts.trans h.starts, h.recorded⟩
  | entered => exact ⟨rfl, h.memo, h.count, h.starts, h.recorded⟩
  | changed => exact ⟨h.loop, h.memo, h.count, h.starts, h.recorded⟩
  | settled hpending => exact h.settled hpending _

theorem Kept.run (h : Kept starts u) (acts : List (Act ω)) : Kept starts (u.run k acts) := by
  induction acts generalizing u with
  | nil => exact h
  | cons a acts ih => exact ih (h.after a)

end Kept

/-- What is known of an epoch does not change any more once its start-up has come to an end, and
does not change before that either. -/
theorem epochs_after (k : Keeper ω) (u : Usage ω) (a : Act ω) {i : Nat} {e : Epoch}
    (he : u.epochs[i]? = some e) (hfixed : e.startup ≠ .pending ∨ ∀ o, a ≠ .finish i o) :
    (u.after k a).epochs[i]? = some e := by
  have hchange := u.change_after k a
  generalize u.after k a = v at hchange ⊢
  cases hchange with
  | same => exact he
  | called => exact getElem?_of_prefix (u.prefix_epochsOfCall k) he
  | left => exact he
  | closed => exact he
  | entered => exact he
  | changed => exact he
  | @settled j valid outcome hpending =>
    have hne : j ≠ i := by
      rintro rfl
      obtain hended | hother := hfixed
      · rw [hpending] at he
        obtain rfl := Option.some.inj he
        exact hended rfl
      · exact hother outcome rfl
    show (u.epochs.set j _)[i]? = some e
    rw [List.getElem?_set_ne hne]
    exact he

theorem epochs_run (k : Keeper ω) (u : Usage ω) (acts : List (Act ω)) {i : Nat} {e : Epoch}
    (he : u.epochs[i]? = some e) (hfixed : e.startup ≠ .pending ∨ ∀ o, .finish i o ∉ acts) :
    (u.run k acts).epochs[i]? = some e := by
  induction acts generalizing u with
  | nil => exact he
  | cons a acts ih =>
    refine ih (u.after k a) (u.epochs_after k a he ?_) ?_
    · obtain hended | hnone := hfixed
      · exact .inl hended
      · exact .inr fun o heq => hnone o (heq ▸ List.mem_cons_self)
    · obtain hended | hnone := hfixed
      · exact .inl hended
      · exact .inr fun o hmem => hnone o (List.mem_cons_of_mem a hmem)

/-- The settings are valid, and were in every epoch. -/
def Valid (u : Usage ω) : Prop :=
  u.shared.world.settings.isOk = true ∧ ∀ e ∈ u.epochs, e.valid = true

theorem settings_begin (k : Keeper ω) (u : Usage ω) :
    (u.shared.begin (Factory.keeper k)).2.2.world.settings = u.shared.world.settings := by
  cases hfound : u.shared.current? with
  | some startup => rw [Shared.begin_of_some hfound]
  | none =>
    obtain ⟨-, hstate⟩ := Shared.begin_of_none (k := Factory.keeper k) hfound
    rw [hstate]
    show ((u.shared.cleared (Factory.keeper k)).start).2.2.settings = _
    rw [Factory.settings_start, (Factory.cleared_keeper k u.shared).2]

theorem Valid.called {k : Keeper ω} {u : Usage ω} (h : u.Valid)
    (outcomes : List (Option (Except Fault Nat))) :
    (u.called k outcomes (u.shared.begin (Factory.keeper k)).2.2).Valid := by
  obtain ⟨hsettings, hepochs⟩ := h
  refine ⟨?_, ?_⟩
  · show (u.shared.begin (Factory.keeper k)).2.2.world.settings.isOk = true
    rw [settings_begin]
    exact hsettings
  · show ∀ e ∈ u.epochsOfCall k, e.valid = true
    unfold epochsOfCall
    split
    · exact hepochs
    · intro e he
      obtain hmem | hnew := List.mem_append.mp he
      · exact hepochs e hmem
      · rw [List.mem_singleton.mp hnew]
        exact hsettings

theorem Valid.after {k : Keeper ω} {u : Usage ω} (h : u.Valid) {a : Act ω}
    (ha : ∀ settings make world, a = .change settings make world → settings.isOk = true) :
    (u.after k a).Valid := by
  have hchange := u.change_after k a
  generalize u.after k a = v at hchange ⊢
  obtain ⟨hsettings, hepochs⟩ := h
  cases hchange with
  | same => exact ⟨hsettings, hepochs⟩
  | called => exact Valid.called ⟨hsettings, hepochs⟩ _
  | left => exact ⟨hsettings, hepochs⟩
  | @closed w _ hsame =>
    refine ⟨?_, hepochs⟩
    show w.settings.isOk = true
    rw [hsame]
    exact hsettings
  | entered => exact ⟨hsettings, hepochs⟩
  | changed => exact ⟨ha _ _ _ rfl, hepochs⟩
  | @settled i valid outcome hpending =>
    refine ⟨?_, fun e he => ?_⟩
    · rw [(u.settled_shared i valid outcome).2]
      exact hsettings
    · obtain hmem | rfl := List.mem_or_eq_of_mem_set he
      · exact hepochs e hmem
      · have hvalid := hepochs ⟨valid, .pending⟩ (List.mem_of_getElem? hpending)
        exact hvalid

theorem Valid.run {k : Keeper ω} {u : Usage ω} (h : u.Valid) {acts : List (Act ω)}
    (hacts : ∀ settings make world, .change settings make world ∈ acts → settings.isOk = true) :
    (u.run k acts).Valid := by
  induction acts generalizing u with
  | nil => exact h
  | cons a acts ih =>
    refine ih (h.after ?_) ?_
    · intro settings make world ha
      exact hacts settings make world (ha ▸ List.mem_cons_self)
    · intro settings make world hmem
      exact hacts settings make world (List.mem_cons_of_mem a hmem)

/-- What a shared session in use has come to, seen from its callers and from what starts the
sessions. -/
structure OncePerEpoch (k : Keeper ω) (starts : Nat) (u : Usage ω) : Prop where
  /-- There was one start for each epoch that began under valid settings. -/
  starts : u.shared.world.starts = starts + (u.epochs.map Epoch.valid).count true
  /-- What a caller got is what came of the start-up of its epoch. -/
  seen : ∀ a ∈ u.seen, ∃ e, u.epochs[a.1]? = some e ∧ Shared.outcome? e.startup = some a.2
  /-- So all callers of an epoch who got something got the same. -/
  agree : ∀ a ∈ u.seen, ∀ b ∈ u.seen, a.1 = b.1 → a.2 = b.2
  /-- Callers wait only for a start-up that has not come to an end. -/
  waiting : ∀ i ∈ u.waiting, ∃ e, u.epochs[i]? = some e ∧ e.startup = .pending
  /-- A caller who is cancelled leaves what any other caller leaves, and in an epoch that has
  not ended it changes nothing. -/
  cancelled : (u.after k .cancel).shared = (u.after k .session).shared ∧
    (u.after k .cancel).epochs = (u.after k .session).epochs ∧
    (u.clock.current = some u.clock.loop →
      (u.after k .cancel).shared = u.shared ∧ (u.after k .cancel).epochs = u.epochs)
  /-- Nothing that happens later changes what came of a start-up, nor, before it has come to an
  end, anything but its end. -/
  fixed : ∀ acts i e, u.epochs[i]? = some e →
    (e.startup ≠ .pending ∨ ∀ o, .finish i o ∉ acts) → (u.run k acts).epochs[i]? = some e

theorem Kept.oncePerEpoch {k : Keeper ω} {u : Usage ω} {starts : Nat} (h : Kept starts u) :
    OncePerEpoch k starts u := by
  constructor
  case starts => exact h.starts
  case seen => exact h.recorded.seen
  case agree =>
    intro a ha b hb heq
    obtain ⟨e, he, hgot⟩ := h.recorded.seen a ha
    obtain ⟨e', he', hgot'⟩ := h.recorded.seen b hb
    rw [← heq, he] at he'
    obtain rfl := Option.some.inj he'
    exact Option.some.inj (hgot.symm.trans hgot')
  case waiting => exact h.recorded.waiting
  case cancelled =>
    refine ⟨rfl, rfl, fun hopen => ⟨(h.call_in hopen).2, ?_⟩⟩
    show u.epochsOfCall k = u.epochs
    rw [epochsOfCall, if_pos hopen]
  case fixed =>
    intro acts i e he hfixed
    exact u.epochs_run k acts he hfixed

/-- However a shared session is used, there is one start for each epoch, what came of it is what
all callers of the epoch get, and nothing that comes later changes it. If the settings are
always valid, the starts are as many as the epochs that the acts tell. -/
theorem one_startup_per_epoch (k : Keeper ω) (loop : Nat) (f : Factory ω) (acts : List (Act ω)) :
    OncePerEpoch k f.starts ((fresh loop f).run k acts) ∧
    ((fresh loop f).run k acts).epochs.length = (acts.foldl Clock.tick { loop }).epochs ∧
    (f.settings.isOk = true →
      (∀ settings make world, .change settings make world ∈ acts → settings.isOk = true) →
      ((fresh loop f).run k acts).shared.world.starts =
        f.starts + (acts.foldl Clock.tick { loop }).epochs) := by
  have hkept : Kept f.starts ((fresh loop f).run k acts) := (kept_fresh loop f).run acts
  have hcount : ((fresh loop f).run k acts).epochs.length =
      (acts.foldl Clock.tick { loop }).epochs := by
    rw [hkept.count, clock_run]
    rfl
  refine ⟨hkept.oncePerEpoch, hcount, fun hsettings hacts => ?_⟩
  have hvalid : ((fresh loop f).run k acts).Valid := by
    have hfresh : (fresh loop f).Valid := ⟨hsettings, by simp [fresh]⟩
    exact hfresh.run hacts
  rw [hkept.starts, ← hcount, ← List.length_map Epoch.valid]
  congr 1
  rw [List.count_eq_length]
  intro v hv
  obtain ⟨e, he, rfl⟩ := List.mem_map.mp hv
  exact (hvalid.2 e he).symm

end FragmentLint.Usage
