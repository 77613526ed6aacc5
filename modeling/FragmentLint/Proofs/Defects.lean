import FragmentLint.Proofs.ArrivalOrder
import FragmentLint.Proofs.StructuralCheck

/-!
# Defects that stay where they are

A parser may break down at any call, and so may the diagnosis of a failure, in another way each
time. So the diagnosis is taken here as one that belongs to the occasion. Whatever breaks, every run
comes to an end, and what is reported for a fragment follows from the verdict that it got and from
the diagnosis of that verdict. For this neither the other fragments nor the order in which verdicts
arrive matter.
-/
namespace FragmentLint

namespace Verdict

/-- What is passed on as the failure that a verdict stands for. -/
inductive Fails : Verdict → Failure → Prop where
  | rejected (failure : Failure) : Fails (.rejected failure) failure
  /-- A breakdown is passed on as prose, with the kind in front. -/
  | broke (kind text : Text) : Fails (.broke ⟨kind, text⟩)
      { message := kind ++ ": " ++ text, position := none, structured := false }

theorem Fails.eq {v : Verdict} {failure failure' : Failure} (h : v.Fails failure)
    (h' : v.Fails failure') : failure = failure' := by
  cases h with
  | rejected => cases h'; rfl
  | broke => cases h'; rfl

theorem failure?_cases (v : Verdict) :
    (v = .accepted ∧ v.failure? = none) ∨
      ∃ failure, v.Fails failure ∧ v.failure? = some failure := by
  cases v with
  | accepted => exact .inl ⟨rfl, rfl⟩
  | rejected failure => exact .inr ⟨failure, .rejected failure, rfl⟩
  | broke defect => exact .inr ⟨_, .broke defect.kind defect.text, rfl⟩

end Verdict

namespace Diagnostic

/-- A finding can be built for every diagnostic of a fragment. -/
theorem anchorAt?_number (d : Diagnostic) (start : Line) (fallback : Option Text) :
    d.anchorAt? start.number fallback = .ok (d.anchor start fallback) := by
  have hline : Finding.line? (start.number + d.depth : Nat) = .ok (start.down d.depth) := by
    rw [Finding.line?, ← Line.number_down, Line.ofInt?_number]
  rw [anchorAt?, ← Int.natCast_add, hline]
  rfl

/-- A diagnostic can be built for every failure whose diagnosis came to nothing. -/
theorem make?_unknownFailureFormat (message : Text) :
    make? .unknownFailureFormat
      (Template.orElse ((Text.firstLine message).take 150) "Unknown parse error") none
      (some "Check the diagram syntax for errors") none =
    .ok (Template.unknownFailureFormat message) := by
  rw [make?, dif_neg (Template.orElse_ne_nil (by decide))]
  rfl

end Diagnostic

namespace Pipeline

/-- A diagnosis, for one occasion. It may come to nothing. -/
abbrev Diagnosis := Failure → Text → Option Diagnostic

/-- A pipeline on an occasion with a diagnosis of its own. -/
def on (p : Pipeline) (d : Diagnosis) : Pipeline :=
  { p with diagnose := d }

/-- What is due for a fragment, given the verdict on its code, if the parser was asked. -/
inductive Due (p : Pipeline) (d : Diagnosis) (f : Fragment) :
    Option Verdict → Option Finding → Prop where
  | blank (hblank : Text.trim f.code = []) :
    Due p d f none (some (Template.emptyContent p.family f.start))
  | accepted (hcode : Text.trim f.code ≠ []) : Due p d f (some .accepted) none
  | diagnosed {v : Verdict} {failure : Failure} {diagnostic : Diagnostic}
      (hcode : Text.trim f.code ≠ []) (hfails : v.Fails failure)
      (hdiagnosis : d failure (Text.trim f.code) = some diagnostic) :
    Due p d f (some v) (some (diagnostic.anchor f.start (p.fallback (Text.trim f.code))))
  /-- The diagnosis came to nothing. -/
  | undiagnosed {v : Verdict} {failure : Failure}
      (hcode : Text.trim f.code ≠ []) (hfails : v.Fails failure)
      (hdiagnosis : d failure (Text.trim f.code) = none) :
    Due p d f (some v) (some
      { line := f.start
        message := Template.orElse ((Text.firstLine failure.message).take 150) "Unknown parse error"
        hint := some "Check the diagram syntax for errors"
        context := p.fallback (Text.trim f.code)
        code := some .unknownFailureFormat })

section Due

variable {p : Pipeline} {d : Diagnosis} {f : Fragment}

/-- The fragment, the verdict and the diagnosis settle what is due. -/
theorem Due.eq {v : Option Verdict} {due due' : Option Finding} (h : p.Due d f v due)
    (h' : p.Due d f v due') : due = due' := by
  cases h with
  | blank => cases h'; rfl
  | accepted =>
    cases h' with
    | accepted => rfl
    | diagnosed _ hfails | undiagnosed _ hfails => cases hfails
  | diagnosed _ hfails hdiagnosis =>
    cases h' with
    | accepted => cases hfails
    | diagnosed _ hfails' hdiagnosis' =>
      obtain rfl := hfails.eq hfails'
      obtain rfl := Option.some.inj (hdiagnosis.symm.trans hdiagnosis')
      rfl
    | undiagnosed _ hfails' hnothing =>
      obtain rfl := hfails.eq hfails'
      cases hdiagnosis.symm.trans hnothing
  | undiagnosed _ hfails hnothing =>
    cases h' with
    | accepted => cases hfails
    | diagnosed _ hfails' hdiagnosis =>
      obtain rfl := hfails.eq hfails'
      cases hdiagnosis.symm.trans hnothing
    | undiagnosed _ hfails' => rw [hfails.eq hfails']

/-- A fragment goes without a finding exactly if it was accepted. -/
theorem Due.eq_none_iff {v : Option Verdict} {due : Option Finding} (h : p.Due d f v due) :
    due = none ↔ v = some .accepted := by
  cases h with
  | blank => simp
  | accepted => simp
  | diagnosed _ hfails | undiagnosed _ hfails => cases hfails <;> simp

/-- A verdict is judged as is due. -/
theorem judge_due (p : Pipeline) (d : Diagnosis) (parser : Text) {f : Fragment} {code : Text}
    (ha : f.asked? = some code) (v : Verdict) :
    p.Due d f (some v) ((p.on d).judge parser f.trimmed v).1 := by
  obtain ⟨rfl, hcode⟩ := Fragment.asked?_eq_some_iff.mp ha
  obtain ⟨rfl, hnone⟩ | ⟨failure, hfails, hsome⟩ := v.failure?_cases
  · rw [judge, hnone]
    exact .accepted hcode
  · rw [judge, hsome]
    dsimp only [diagnosis, on, Fragment.trimmed]
    cases hdiagnosis : d failure (Text.trim f.code) with
    | some diagnostic => exact .diagnosed hcode hfails hdiagnosis
    | none => exact .undiagnosed hcode hfails hdiagnosis

end Due

section Sync

variable {σ : Type} {c : Checker σ}

/-- A run over one fragment after another, each on an occasion with a diagnosis of its own. -/
def runSyncOn (p : Pipeline) (c : Checker σ) :
    List (Fragment × Diagnosis) → σ → Option (List Event × σ)
  | [], s => some ([], s)
  | (f, d) :: occasions, s => do
    let (events, s) ← (p.on d).runSync c [f] s
    let (others, s) ← runSyncOn p c occasions s
    return (events ++ others, s)

/-- The findings of a run are those due for its fragments: the parser was asked about each in the
state that the one before left, and its verdict was diagnosed as the occasion had it. -/
def Settled (p : Pipeline) (c : Checker σ) (occasions : List (Fragment × Diagnosis)) (s t : σ)
    (found : List Finding) : Prop :=
  ∃ rows : List (Visit σ × Option Finding),
    c.visits? (occasions.map Prod.fst) s = some (rows.map Prod.fst, t) ∧
    List.Forall₂ (fun o r => p.Due o.2 o.1 (r.1.answer.map Checked.verdict) r.2) occasions rows ∧
    found = rows.filterMap Prod.snd

/-- With the same diagnosis on every occasion this is a run of the pipeline. -/
theorem runSyncOn_same (p : Pipeline) (c : Checker σ) (fragments : List Fragment) (s : σ) :
    p.runSyncOn c (fragments.map (·, p.diagnose)) s = p.runSync c fragments s := by
  induction fragments generalizing s with
  | nil => rfl
  | cons f fragments ih =>
    have hsame : p.on p.diagnose = p := rfl
    rw [List.map_cons, runSyncOn, hsame]
    simp only [ih, runSync]
    cases Precheck.notEmpty p.family f with
    | error finding => rfl
    | ok trimmed =>
      dsimp only
      cases c.check trimmed.code s with
      | none => rfl
      | some answer => simp

theorem visit?_due (p : Pipeline) (d : Diagnosis) {f : Fragment} {s : σ} {v : Visit σ}
    (h : c.visit? f s = some v) :
    p.Due d f (v.answer.map Checked.verdict) (v.finding? (p.on d) c.name) := by
  cases ha : f.asked? with
  | none =>
    rw [c.visit?_blank ha, Option.some.injEq] at h
    subst h
    exact .blank (Fragment.asked?_eq_none_iff.mp ha)
  | some code =>
    rw [c.visit?_asked ha] at h
    obtain ⟨answer, -, rfl⟩ := Option.map_eq_some_iff.mp h
    exact p.judge_due d c.name ha answer.verdict

theorem runSync_single (p : Pipeline) {f : Fragment} {s : σ} {v : Visit σ}
    (h : c.visit? f s = some v) : ∃ events, p.runSync c [f] s = some (events, v.after) ∧
      Event.findings events = (v.finding? p c.name).toList := by
  have hout := p.runSync_cons_outside c f [] s
  rw [h, Option.bind_some, runSync] at hout
  obtain ⟨⟨events, t⟩, hrun, heq⟩ := Option.map_eq_some_iff.mp hout
  simp only [outside, addVisit, Event.findings_nil, List.append_nil, Prod.mk.injEq] at heq
  obtain ⟨hfound, -, rfl⟩ := heq
  exact ⟨events, hrun, hfound⟩

/-- With a parser that answers, whatever it answers, the run comes to an end and is settled. -/
theorem runSyncOn_settled (p : Pipeline) (h : c.Total) (occasions : List (Fragment × Diagnosis))
    (s : σ) : ∃ events t, p.runSyncOn c occasions s = some (events, t) ∧
      p.Settled c occasions s t (Event.findings events) := by
  induction occasions generalizing s with
  | nil => exact ⟨[], s, rfl, [], rfl, .nil, rfl⟩
  | cons o occasions ih =>
    obtain ⟨f, d⟩ := o
    obtain ⟨v, hv⟩ := h.visit? f s
    obtain ⟨events, hrun, hfound⟩ := (p.on d).runSync_single hv
    obtain ⟨others, t, hothers, rows, hvisits, hdues, hrest⟩ := ih v.after
    refine ⟨events ++ others, t, ?_, (v, v.finding? (p.on d) c.name) :: rows, ?_, ?_, ?_⟩
    · simp [runSyncOn, hrun, hothers]
    · simp [Checker.visits?, hv, hvisits]
    · exact .cons (p.visit?_due d hv) hdues
    · rw [Event.findings_append, hfound, hrest]
      cases v.finding? (p.on d) c.name <;> simp

/-- A run comes to an end, with a state and findings as they should be. -/
def Ends (run : Option (List Event × σ)) (good : σ → List Finding → Prop) : Prop :=
  ∃ events t, run = some (events, t) ∧ good t (Event.findings events)

/-- A run that looks from outside like one over one fragment after another is settled as well. -/
theorem ends_of_outside (p : Pipeline) (h : c.Total) {run : Option (List Event × σ)}
    {fragments : List Fragment} {s : σ}
    (hrun : run.map outside = (p.runSync c fragments s).map outside) :
    Ends run (p.Settled c (fragments.map (·, p.diagnose)) s) := by
  obtain ⟨events, t, hsync, hsettled⟩ :=
    p.runSyncOn_settled h (fragments.map (·, p.diagnose)) s
  rw [p.runSyncOn_same] at hsync
  rw [hsync, Option.map_some] at hrun
  obtain ⟨⟨others, u⟩, rfl, heq⟩ := Option.map_eq_some_iff.mp hrun
  simp only [outside, Prod.mk.injEq] at heq
  obtain ⟨hfound, -, rfl⟩ := heq
  exact ⟨others, u, rfl, hfound ▸ hsettled⟩

theorem runFull_ends (p : Pipeline) (h : c.Total) (fragments : List Fragment) (s : σ) :
    Ends (p.runFull c fragments s) (p.Settled c (fragments.map (·, p.diagnose)) s) :=
  p.ends_of_outside h
    ((p.runFull_outside c fragments s).trans (p.runSync_outside c fragments s).symm)

/-- What a run in a mode makes of its fragments. -/
def SettledIn (p : Pipeline) (c : Checker σ) (mode : Mode) (fragments : List Fragment) (s t : σ)
    (found : List Finding) : Prop :=
  if p.asks mode then p.Settled c (fragments.map (·, p.diagnose)) s t found
  else t = s ∧ Precheck.Structural p.family fragments found

theorem run_ends (p : Pipeline) (h : c.Total) (mode : Mode) (fragments : List Fragment) (s : σ) :
    Ends (p.run c mode fragments s) (p.SettledIn c mode fragments s) := by
  cases hasks : p.asks mode with
  | true =>
    have hout := (p.run_outside c rfl fragments s).trans (p.runSync_outside c fragments s).symm
    rw [← run_of_asks hasks] at hout
    obtain ⟨events, t, hrun, hsettled⟩ := p.ends_of_outside h hout
    exact ⟨events, t, hrun, by rwa [SettledIn, if_pos hasks]⟩
  | false =>
    have hbasic : mode = .basic ∧ p.hasBasic = true := by simpa [asks] using hasks
    refine ⟨p.runBasic fragments, s, by rw [run, if_pos hbasic], ?_⟩
    rw [SettledIn, hasks, if_neg Bool.false_ne_true]
    exact ⟨rfl, p.runBasic_structural fragments⟩

end Sync

/-- What happens next in a run with several fragments under way, on an occasion with a diagnosis of
its own. -/
def Handled (p : Pipeline) (parser : Text) (g : Gathering) (m : Moment × Diagnosis)
    (g' : Gathering) : Prop :=
  Gathering.Step (p.on m.2) parser g m.1 g'

/-- What is due for the fragment of a given number: it is blank, or one verdict arrived for it and
was diagnosed on that occasion. -/
inductive DueAt (p : Pipeline) (ms : List (Moment × Diagnosis)) (i : Nat) (f : Fragment)
    (due : Option Finding) : Prop where
  | blank (hdue : p.Due p.diagnose f none due)
  | arrived {a : Arrival} {d : Diagnosis} (ha : (.finish a, d) ∈ ms) (hslot : a.slot = i)
      (honly : ∀ b e, (.finish b, e) ∈ ms → b.slot = i → b = a ∧ e = d)
      (hdue : p.Due d f (some a.verdict) due)

/-- What is held for the fragment of a given number: what was held at first, as long as no verdict
has arrived for it, and then what is due. -/
inductive Held (p : Pipeline) (ms : List (Moment × Diagnosis)) (i : Nat) (f : Fragment)
    (slot : Slot) : Prop where
  | untouched (hnone : ∀ a d, (.finish a, d) ∈ ms → a.slot ≠ i) (hslot : slot = p.slot f)
  | done {due : Option Finding} (hdue : p.DueAt ms i f due) (hslot : slot = .settled due)

/-- The findings that were reported are those due for the fragments, in their order. -/
def ReportedAt (p : Pipeline) (fragments : List Fragment) (ms : List (Moment × Diagnosis))
    (found : List Finding) : Prop :=
  ∃ dues : List (Option Finding), dues.length = fragments.length ∧ found = dues.filterMap id ∧
    ∀ i f due, fragments[i]? = some f → dues[i]? = some due → p.DueAt ms i f due

section Handled

variable {p : Pipeline} {parser : Text} {fragments : List Fragment}
  {ms : List (Moment × Diagnosis)} {m : Moment × Diagnosis} {i : Nat} {f : Fragment}

theorem mem_finish_snoc {a : Arrival} {d : Diagnosis} :
    (.finish a, d) ∈ ms ++ [m] ↔ (.finish a, d) ∈ ms ∨ m = (.finish a, d) := by
  rw [List.mem_append, List.mem_singleton, eq_comm (a := m)]

/-- What happens elsewhere does not matter. -/
theorem DueAt.snoc {due : Option Finding} (h : p.DueAt ms i f due)
    (hm : ∀ a d, m = (.finish a, d) → a.slot ≠ i) : p.DueAt (ms ++ [m]) i f due := by
  cases h with
  | blank hdue => exact .blank hdue
  | arrived ha hslot honly hdue =>
    refine .arrived (mem_finish_snoc.mpr (.inl ha)) hslot (fun b e hb hslot' => ?_) hdue
    obtain hb | hlast := mem_finish_snoc.mp hb
    · exact honly b e hb hslot'
    · exact absurd hslot' (hm b e hlast)

theorem Held.snoc {slot : Slot} (h : p.Held ms i f slot)
    (hm : ∀ a d, m = (.finish a, d) → a.slot ≠ i) : p.Held (ms ++ [m]) i f slot := by
  cases h with
  | untouched hnone hslot =>
    refine .untouched (fun a d ha => ?_) hslot
    obtain ha | hlast := mem_finish_snoc.mp ha
    · exact hnone a d ha
    · exact hm a d hlast
  | done hdue hslot => exact .done (hdue.snoc hm) hslot

/-- Where a verdict is waited for, none has arrived, and the fragment is not blank. -/
theorem Held.waiting {trimmed : Fragment} (h : p.Held ms i f (.waiting trimmed)) :
    (∀ a d, (.finish a, d) ∈ ms → a.slot ≠ i) ∧ trimmed = f.trimmed ∧
      ∃ code, f.asked? = some code := by
  cases h with
  | untouched hnone hslot =>
    cases ha : f.asked? with
    | none =>
      rw [p.slot_of_blank ha] at hslot
      cases hslot
    | some code =>
      rw [p.slot_of_asked ha] at hslot
      exact ⟨hnone, Slot.waiting.inj hslot, code, rfl⟩
  | done hdue hslot => cases hslot

/-- Where nothing is waited for, what is due is held. -/
theorem Held.settled {due : Option Finding} (h : p.Held ms i f (.settled due)) :
    p.DueAt ms i f due := by
  cases h with
  | untouched hnone hslot =>
    cases ha : f.asked? with
    | none =>
      rw [p.slot_of_blank ha] at hslot
      obtain rfl := Slot.settled.inj hslot
      exact .blank (.blank (Fragment.asked?_eq_none_iff.mp ha))
    | some code =>
      rw [p.slot_of_asked ha] at hslot
      cases hslot
  | done hdue hslot =>
    obtain rfl := Slot.settled.inj hslot
    exact hdue

/-- What is due is not known before the verdict has arrived. -/
theorem DueAt.arrival {due : Option Finding} (h : p.DueAt ms i f due) {code : Text}
    (hasked : f.asked? = some code) : ∃ a d, (.finish a, d) ∈ ms ∧ a.slot = i := by
  cases h with
  | blank hdue =>
    cases hdue with
    | blank hblank =>
      rw [Fragment.asked?_eq_none_iff.mpr hblank] at hasked
      cases hasked
  | arrived ha hslot => exact ⟨_, _, ha, hslot⟩

theorem ReportedAt.snoc {found : List Finding} (h : p.ReportedAt fragments ms found)
    (hm : ∀ a d, m ≠ (.finish a, d)) : p.ReportedAt fragments (ms ++ [m]) found := by
  obtain ⟨dues, hlength, hfound, hdues⟩ := h
  refine ⟨dues, hlength, hfound, fun i f due hf hdue => ?_⟩
  exact (hdues i f due hf hdue).snoc fun a d heq => absurd heq (hm a d)

theorem exists_settled {slots : List Slot} (h : ∀ trimmed, .waiting trimmed ∉ slots) :
    ∃ dues : List (Option Finding), slots = dues.map .settled := by
  induction slots with
  | nil => exact ⟨[], rfl⟩
  | cons slot slots ih =>
    obtain ⟨dues, rfl⟩ := ih fun trimmed hmem => h trimmed (List.mem_cons_of_mem _ hmem)
    cases slot with
    | waiting trimmed => exact absurd List.mem_cons_self (h trimmed)
    | settled due => exact ⟨due :: dues, rfl⟩

theorem settled_of_findings? {slots : List Slot} {found : List Finding}
    (h : findings? slots = some found) :
    ∃ dues : List (Option Finding), slots = dues.map .settled ∧ found = dues.filterMap id := by
  have hnone : ∀ trimmed, .waiting trimmed ∉ slots := by
    intro trimmed hmem
    obtain ⟨i, hi⟩ := List.mem_iff_getElem?.mp hmem
    rw [findings?_eq_none_of_waiting hi] at h
    cases h
  obtain ⟨dues, rfl⟩ := exists_settled hnone
  rw [findings?_settled] at h
  exact ⟨dues, rfl, (Option.some.inj h).symm⟩

/-- What is known of a run with several fragments under way, whatever has happened so far. -/
structure Tallied (p : Pipeline) (fragments : List Fragment) (ms : List (Moment × Diagnosis))
    (g : Gathering) : Prop where
  length : g.slots.length = fragments.length
  slots : ∀ i f slot, fragments[i]? = some f → g.slots[i]? = some slot → p.Held ms i f slot
  begun : ∀ i d, (.begin i, d) ∈ ms → i ∈ g.begun
  joined : g.joined = true ↔ ∃ d, (.join, d) ∈ ms
  silent : g.joined = false → Event.findings g.log = []
  reported : g.joined = true → p.ReportedAt fragments ms (Event.findings g.log)

theorem tallied_ready (p : Pipeline) (fragments : List Fragment) :
    p.Tallied fragments [] (.ready p fragments) where
  length := List.length_map _
  slots := fun i f slot hf hslot => by
    rw [Gathering.ready, List.getElem?_map, hf] at hslot
    exact .untouched (by simp) (Option.some.inj hslot).symm
  begun := by simp
  joined := by simp [Gathering.ready]
  silent := fun _ => rfl
  reported := by simp [Gathering.ready]

section Step

variable {g : Gathering} {d : Diagnosis}

theorem Tallied.fragment (h : p.Tallied fragments ms g) {i : Nat} {slot : Slot}
    (hslot : g.slots[i]? = some slot) :
    ∃ f, fragments[i]? = some f ∧ p.Held ms i f slot := by
  obtain ⟨hi, -⟩ := List.getElem?_eq_some_iff.mp hslot
  have hlt : i < fragments.length := h.length ▸ hi
  have hf : fragments[i]? = some fragments[i] := List.getElem?_eq_getElem hlt
  exact ⟨fragments[i], hf, h.slots i _ slot hf hslot⟩

theorem Tallied.begin (h : p.Tallied fragments ms g) {i : Nat} {slot : Slot} :
    p.Tallied fragments (ms ++ [(.begin i, d)])
      { g with
        begun := g.begun ++ [i]
        log := g.log ++ slot.code?.toList.map .call } where
  length := h.length
  slots := fun j f slot hf hslot => (h.slots j f slot hf hslot).snoc (by simp)
  begun := fun j e hj => by
    obtain hj | hlast := List.mem_append.mp hj
    · exact List.mem_append_left _ (h.begun j e hj)
    · obtain ⟨rfl, -⟩ : j = i ∧ e = d := by simpa using hlast
      exact List.mem_append_right _ (List.mem_singleton_self j)
  joined := by simp [h.joined]
  silent := fun hj => by simpa using h.silent hj
  reported := fun hj => by simpa using (h.reported hj).snoc (by simp)

/-- A verdict that arrives settles its slot, and leaves the others as they are. -/
theorem Tallied.finish (h : p.Tallied fragments ms g) {a : Arrival} {trimmed : Fragment}
    (hslot : g.slots[a.slot]? = some (.waiting trimmed)) :
    p.Tallied fragments (ms ++ [(.finish a, d)])
      { g with
        slots := ((p.on d).arrive parser g.slots a).1
        log := g.log ++ ((p.on d).arrive parser g.slots a).2.map .notice } := by
  obtain ⟨hi, -⟩ := List.getElem?_eq_some_iff.mp hslot
  obtain ⟨f, hf, hheld⟩ := h.fragment hslot
  obtain ⟨hnone, rfl, code, hasked⟩ := hheld.waiting
  have hset : ((p.on d).arrive parser g.slots a).1 =
      g.slots.set a.slot (.settled ((p.on d).judge parser f.trimmed a.verdict).1) :=
    arrive_waiting hslot
  constructor
  case length => rw [hset, List.length_set, h.length]
  case slots =>
    intro j f' slot hf' hslot'
    rw [hset] at hslot'
    by_cases hj : j = a.slot
    · subst hj
      obtain rfl := Option.some.inj (hf.symm.trans hf')
      rw [List.getElem?_set_self hi] at hslot'
      have honly : ∀ b e, (.finish b, e) ∈ ms ++ [(.finish a, d)] → b.slot = a.slot →
          b = a ∧ e = d := by
        intro b e hb hbslot
        obtain hb | hlast := mem_finish_snoc.mp hb
        · exact absurd hbslot (hnone b e hb)
        · obtain ⟨rfl, rfl⟩ : a = b ∧ d = e := by simpa using hlast
          exact ⟨rfl, rfl⟩
      exact .done (.arrived (mem_finish_snoc.mpr (.inr rfl)) rfl honly
        (p.judge_due d parser hasked a.verdict)) (Option.some.inj hslot').symm
    · rw [List.getElem?_set_ne (Ne.symm hj)] at hslot'
      refine (h.slots j f' slot hf' hslot').snoc fun b e heq => ?_
      obtain ⟨rfl, -⟩ : a = b ∧ d = e := by simpa using heq
      exact Ne.symm hj
  case begun =>
    intro j e hj
    exact h.begun j e (by simpa using hj)
  case joined => simp [h.joined]
  case silent =>
    intro hj
    simpa using h.silent hj
  case reported =>
    -- Once the findings are reported, no verdict is waited for any more.
    intro hj
    obtain ⟨dues, hlength, -, hdues⟩ := h.reported hj
    obtain ⟨due, hdue⟩ : ∃ due, dues[a.slot]? = some due :=
      ⟨_, List.getElem?_eq_getElem (by rw [hlength, ← h.length]; exact hi)⟩
    obtain ⟨b, e, hb, hbslot⟩ := (hdues _ f _ hf hdue).arrival hasked
    exact absurd hbslot (hnone b e hb)

theorem Tallied.join (h : p.Tallied fragments ms g) {found : List Finding}
    (hfound : findings? g.slots = some found) (hjoined : g.joined = false) :
    p.Tallied fragments (ms ++ [(.join, d)])
      { g with
        log := g.log ++ found.map .report
        joined := true } where
  length := h.length
  slots := fun j f slot hf hslot => (h.slots j f slot hf hslot).snoc (by simp)
  begun := fun j e hj => h.begun j e (by simpa using hj)
  joined := by simp
  silent := by simp
  reported := fun _ => by
    obtain ⟨dues, hdues, rfl⟩ := settled_of_findings? hfound
    have hlength := h.length
    rw [hdues, List.length_map] at hlength
    have hnow : p.ReportedAt fragments ms (dues.filterMap id) := by
      refine ⟨dues, hlength, rfl, fun i f due hf hdue => (h.slots i f _ hf ?_).settled⟩
      rw [hdues, List.getElem?_map, hdue, Option.map_some]
    simpa [h.silent hjoined] using hnow.snoc (by simp)

end Step

/-- Whatever the order of its moments and whatever breaks at them, a run is tallied at each. -/
theorem tallied_of_course {g : Gathering}
    (h : Course (p.Handled parser) (.ready p fragments) ms g) : p.Tallied fragments ms g := by
  induction h with
  | start => exact p.tallied_ready fragments
  | @next ms m t u _ hstep ih =>
    obtain ⟨m, d⟩ := m
    cases hstep with
    | begin hslot hnew => exact ih.begin
    | finish hslot hbegun => exact ih.finish hslot
    | join hall hfound hjoined => exact ih.join hfound hjoined

/-- A run with several fragments under way, after some moments, whatever broke at them. -/
structure Contained (p : Pipeline) (parser : Text) (fragments : List Fragment)
    (ms : List (Moment × Diagnosis)) (g : Gathering) : Prop where
  /-- Once all verdicts are there, the run can come to its end. -/
  joins : Completed fragments (ms.map Prod.fst) → (∀ d, (.join, d) ∉ ms) →
    ∀ d, ∃ g', p.Handled parser g (.join, d) g'
  /-- Until then nothing is reported. -/
  silent : (∀ d, (.join, d) ∉ ms) → Event.findings g.log = []
  /-- What is reported then is due. -/
  reported : (∃ d, (.join, d) ∈ ms) → p.ReportedAt fragments ms (Event.findings g.log)

theorem Tallied.contained {g : Gathering} (h : p.Tallied fragments ms g) :
    p.Contained parser fragments ms g := by
  have hopen : (∀ d, (.join, d) ∉ ms) → g.joined = false := by
    intro hnone
    rw [← Bool.not_eq_true, h.joined]
    exact fun ⟨d, hd⟩ => hnone d hd
  refine ⟨fun hdone hnone d => ?_, fun hnone => h.silent (hopen hnone),
    fun hjoin => h.reported (h.joined.mpr hjoin)⟩
  have hsettled : ∀ trimmed, .waiting trimmed ∉ g.slots := by
    intro trimmed hmem
    obtain ⟨i, hi⟩ := List.mem_iff_getElem?.mp hmem
    obtain ⟨f, hf, hheld⟩ := h.fragment hi
    obtain ⟨hwaits, -, code, hasked⟩ := hheld.waiting
    obtain ⟨a, ha, hslot⟩ := (hdone i f hf).2 (by rw [hasked]; rfl)
    obtain ⟨⟨_, e⟩, hmem, rfl⟩ := List.mem_map.mp ha
    exact hwaits a e hmem hslot
  have hbegun : ∀ i < g.slots.length, i ∈ g.begun := by
    intro i hi
    obtain ⟨f, hf, -⟩ := h.fragment (List.getElem?_eq_getElem hi)
    obtain ⟨⟨_, e⟩, hmem, rfl⟩ := List.mem_map.mp (hdone i f hf).1
    exact h.begun i e hmem
  obtain ⟨dues, hdues⟩ := exists_settled hsettled
  have hfound : findings? g.slots = some (dues.filterMap id) := by
    rw [hdues, findings?_settled]
  exact ⟨_, .join hbegun hfound (hopen hnone)⟩

end Handled

/-- Whatever breaks, a run without the parser reports what is due by the structure of the fragments,
and every other run comes to an end and reports what is due by their verdicts, one after another or
side by side. What is due for a fragment is settled by its own verdict and the diagnosis of it: one
finding, unless it was accepted. No finding is refused when it is built. -/
theorem defects_contained (p : Pipeline) :
    (∀ fragments, Precheck.Structural p.family fragments
      (Event.findings (p.runBasic fragments))) ∧
    (∀ {σ : Type} (c : Checker σ), c.Total →
      (∀ occasions s, Ends (p.runSyncOn c occasions s) (p.Settled c occasions s)) ∧
      ∀ fragments s,
        p.runSync c fragments s = p.runSyncOn c (fragments.map (·, p.diagnose)) s ∧
        Ends (p.runFull c fragments s) (p.Settled c (fragments.map (·, p.diagnose)) s) ∧
        ∀ mode, Ends (p.run c mode fragments s) (p.SettledIn c mode fragments s)) ∧
    (∀ parser fragments ms g, Course (p.Handled parser) (.ready p fragments) ms g →
      p.Contained parser fragments ms g) ∧
    (∀ d f v due, p.Due d f v due →
      (due = none ↔ v = some .accepted) ∧ ∀ due', p.Due d f v due' → due' = due) ∧
    (∀ (d : Diagnostic) (start : Line) fallback,
      d.anchorAt? start.number fallback = .ok (d.anchor start fallback)) ∧
    ∀ message, Diagnostic.make? .unknownFailureFormat
      (Template.orElse ((Text.firstLine message).take 150) "Unknown parse error") none
      (some "Check the diagram syntax for errors") none =
        .ok (Template.unknownFailureFormat message) := by
  refine ⟨p.runBasic_structural, fun c h => ⟨p.runSyncOn_settled h, fun fragments s =>
    ⟨(p.runSyncOn_same c fragments s).symm, p.runFull_ends h fragments s, fun mode =>
      p.run_ends h mode fragments s⟩⟩, ?_, ?_, Diagnostic.anchorAt?_number,
    Diagnostic.make?_unknownFailureFormat⟩
  · intro parser fragments ms g hcourse
    exact (tallied_of_course hcourse).contained
  · intro d f v due h
    exact ⟨h.eq_none_iff, fun due' h' => h'.eq h⟩

/-- A parser that breaks down at every second piece of code. -/
def brittle : Checker Nat :=
  ⟨"katex", false, fun _ n =>
    some ⟨if n % 2 = 0 then .broke ⟨"RuntimeError", "boom"⟩ else .accepted, [], n + 1⟩⟩

/-- A blank formula and two others, with a diagnosis that comes to nothing. -/
def brittleOccasions : List (Fragment × Diagnosis) :=
  [(⟨" ", .first⟩, fun _ _ => none), (⟨"x", ⟨3, by decide⟩⟩, fun _ _ => none),
    (⟨"y", ⟨7, by decide⟩⟩, fun _ _ => none)]

/-- The second formula begins first and breaks the parser before the others begin. -/
def brittleMoments : List (Moment × Diagnosis) :=
  [(.begin 1, fun _ _ => none), (.finish ⟨1, .broke ⟨"RuntimeError", "boom"⟩, []⟩, fun _ _ => none),
    (.begin 0, fun _ _ => none), (.begin 2, fun _ _ => none),
    (.finish ⟨2, .accepted, []⟩, fun _ _ => none), (.join, fun _ _ => none)]

def said (found : List Finding) : List (Nat × Text) :=
  found.map fun f => (f.line.number, f.message)

def brittleSaid : List (Nat × Text) :=
  [(1, "Empty math block"), (3, "RuntimeError: boom")]

theorem defects_contained_brittle :
    Ends (Family.math.pipeline.runSyncOn brittle brittleOccasions 0)
      (Family.math.pipeline.Settled brittle brittleOccasions 0) ∧
    (Family.math.pipeline.runSyncOn brittle brittleOccasions 0).map
      (fun r => said (Event.findings r.1)) = some brittleSaid ∧
    ∃ g : Gathering, Family.math.pipeline.ReportedAt (brittleOccasions.map Prod.fst) brittleMoments
        (Event.findings g.log) ∧
      said (Event.findings g.log) = brittleSaid := by
  have htotal : brittle.Total := fun _ _ => rfl
  have hcourse : ∃ g, Course (Family.math.pipeline.Handled "katex")
      (.ready Family.math.pipeline (brittleOccasions.map Prod.fst)) brittleMoments g ∧
      said (Event.findings g.log) = brittleSaid :=
    ⟨_, .cons (Gathering.Step.begin rfl (by decide)) (.cons (Gathering.Step.finish rfl (by decide))
      (.cons (Gathering.Step.begin rfl (by decide)) (.cons (Gathering.Step.begin rfl (by decide))
        (.cons (Gathering.Step.finish rfl (by decide))
          (.single (Gathering.Step.join (by decide) rfl rfl)))))), by decide⟩
  obtain ⟨g, hcourse, hmessages⟩ := hcourse
  obtain ⟨-, hsync, hside, -⟩ := defects_contained Family.math.pipeline
  refine ⟨(hsync brittle htotal).1 brittleOccasions 0, by decide, g, ?_, hmessages⟩
  exact (hside _ _ _ _ hcourse).reported ⟨fun _ _ => none, by simp [brittleMoments]⟩

end Pipeline

end FragmentLint
