import FragmentLint.Proofs.Trace
import FragmentLint.Proofs.Visits
import Mathlib.Data.List.Nodup
import Mathlib.Data.List.Perm.Subperm

/-!
# Side by side as one by one

A run over several fragments at once is followed here moment by moment. Fragments begin in any
order, verdicts arrive in any order, also before other fragments have begun, and the findings
are reported at the end. What is reported does not depend on any of these orders: it is what a
run reports that goes through the fragments one by one, given that the verdict on a fragment
depends on its code alone.
-/
namespace FragmentLint.Pipeline

/-- What happens next in a run with several fragments under way. -/
inductive Moment where
  /-- The fragment of a given number is begun. -/
  | begin (i : Nat)
  /-- A verdict arrives. -/
  | finish (a : Arrival)
  /-- Nothing is waited for any more, and the findings are reported. -/
  | join

/-- A run with several fragments under way, as it stands. -/
structure Gathering where
  slots : List Slot
  /-- The fragments that have begun. -/
  begun : List Nat := []
  /-- What has happened so far. -/
  log : List Event := []
  /-- Whether the findings have been reported. -/
  joined : Bool := false

namespace Gathering

/-- A run that is about to begin. -/
def ready (p : Pipeline) (fragments : List Fragment) : Gathering :=
  { slots := fragments.map p.slot }

/-- How a run goes on. A fragment begins once; a verdict arrives only where one is waited for;
and the findings are reported when all fragments have begun and none waits. -/
inductive Step (p : Pipeline) (parser : Text) : Gathering → Moment → Gathering → Prop where
  | begin {g : Gathering} {i : Nat} {slot : Slot} (hslot : g.slots[i]? = some slot)
      (hnew : i ∉ g.begun) :
      Step p parser g (.begin i)
        { g with
          begun := g.begun ++ [i]
          log := g.log ++ slot.code?.toList.map .call }
  | finish {g : Gathering} {a : Arrival} {trimmed : Fragment}
      (hslot : g.slots[a.slot]? = some (.waiting trimmed)) (hbegun : a.slot ∈ g.begun) :
      Step p parser g (.finish a)
        { g with
          slots := (p.arrive parser g.slots a).1
          log := g.log ++ (p.arrive parser g.slots a).2.map .notice }
  | join {g : Gathering} {found : List Finding} (hall : ∀ i < g.slots.length, i ∈ g.begun)
      (hfound : findings? g.slots = some found) (hjoined : g.joined = false) :
      Step p parser g .join
        { g with
          log := g.log ++ found.map .report
          joined := true }

end Gathering

/-- A verdict for a given fragment has arrived. -/
def Finished (ms : List Moment) (i : Nat) : Prop :=
  ∃ a, .finish a ∈ ms ∧ a.slot = i

/-- Every fragment has begun, and the verdict on every one that is not blank has arrived. -/
def Completed (fragments : List Fragment) (ms : List Moment) : Prop :=
  ∀ i f, fragments[i]? = some f → .begin i ∈ ms ∧ (f.asked?.isSome → Finished ms i)

/-- The verdicts that arrive are given by the code alone. -/
def Honest (verdict : Text → Verdict) (fragments : List Fragment) (ms : List Moment) : Prop :=
  ∀ a, .finish a ∈ ms → ∀ f, fragments[a.slot]? = some f → a.verdict = verdict (Text.trim f.code)

theorem Finished.mono {ms ns : List Moment} {i : Nat} (h : Finished ms i) (hsub : ms ⊆ ns) :
    Finished ns i := by
  obtain ⟨a, ha, hslot⟩ := h
  exact ⟨a, hsub ha, hslot⟩

theorem finished_snoc {ms : List Moment} {m : Moment} {i : Nat} :
    Finished (ms ++ [m]) i ↔ Finished ms i ∨ ∃ a, m = .finish a ∧ a.slot = i := by
  constructor
  · rintro ⟨a, ha, hslot⟩
    obtain hmem | hlast := List.mem_append.mp ha
    · exact .inl ⟨a, hmem, hslot⟩
    · exact .inr ⟨a, (List.mem_singleton.mp hlast).symm, hslot⟩
  · rintro (hfin | ⟨a, rfl, hslot⟩)
    · exact hfin.mono (List.subset_append_left ms [m])
    · exact ⟨a, by simp, hslot⟩

/-- No verdict arrives when a fragment begins or the findings are reported. -/
theorem finished_other {ms : List Moment} {m : Moment} (hm : ∀ a, m ≠ .finish a) {i : Nat} :
    Finished (ms ++ [m]) i ↔ Finished ms i := by
  rw [finished_snoc]
  constructor
  · rintro (hfin | ⟨a, rfl, -⟩)
    · exact hfin
    · exact absurd rfl (hm a)
  · exact .inl

theorem Completed.mono {fragments : List Fragment} {ms ns : List Moment}
    (h : Completed fragments ms) (hsub : ms ⊆ ns) : Completed fragments ns := by
  intro i f hf
  obtain ⟨hbegin, hfinish⟩ := h i f hf
  exact ⟨hsub hbegin, fun hasked => (hfinish hasked).mono hsub⟩

theorem Honest.mono {verdict : Text → Verdict} {fragments : List Fragment} {ms ns : List Moment}
    (h : Honest verdict fragments ns) (hsub : ms ⊆ ns) : Honest verdict fragments ms := by
  intro a ha f hf
  exact h a (hsub ha) f hf

theorem findings?_eq_none_of_waiting {slots : List Slot} {i : Nat} {trimmed : Fragment}
    (h : slots[i]? = some (.waiting trimmed)) : findings? slots = none := by
  induction slots generalizing i with
  | nil => simp at h
  | cons slot slots ih =>
    cases slot with
    | waiting t => rfl
    | settled f =>
      cases i with
      | zero => simp at h
      | succ i =>
        have hnone := ih (by simpa using h)
        rw [findings?, hnone]
        rfl

theorem arrive_waiting {p : Pipeline} {parser : Text} {slots : List Slot} {a : Arrival}
    {trimmed : Fragment} (h : slots[a.slot]? = some (.waiting trimmed)) :
    (p.arrive parser slots a).1 =
      slots.set a.slot (.settled (p.judge parser trimmed a.verdict).1) := by
  simp [arrive, h]

/-- What is found at a fragment, if the verdict is given by the code alone. -/
def expected (p : Pipeline) (parser : Text) (verdict : Text → Verdict) (f : Fragment) :
    Option Finding :=
  (Visit.ofVerdict verdict f).finding? p parser

theorem slot_eq_settled {p : Pipeline} {parser : Text} {verdict : Text → Verdict} {f : Fragment}
    (h : f.asked? = none) : p.slot f = .settled (p.expected parser verdict f) := by
  rw [p.slot_of_blank h, expected, Visit.finding?, Visit.ofVerdict, h]
  rfl

theorem judge_eq_expected {p : Pipeline} {parser : Text} {verdict : Text → Verdict}
    {f : Fragment} {code : Text} (h : f.asked? = some code) :
    (p.judge parser f.trimmed (verdict (Text.trim f.code))).1 = p.expected parser verdict f := by
  obtain ⟨rfl, -⟩ := Fragment.asked?_eq_some_iff.mp h
  rw [expected, Visit.finding?, Visit.ofVerdict, h]
  rfl

/-- What a slot holds after some moments: the verdict's finding, or what it held at first. -/
def Holds (p : Pipeline) (parser : Text) (verdict : Text → Verdict) (fragments : List Fragment)
    (ms : List Moment) (slots : List Slot) : Prop :=
  slots.length = fragments.length ∧ ∀ i f, fragments[i]? = some f →
    (Finished ms i → slots[i]? = some (.settled (p.expected parser verdict f))) ∧
    (¬ Finished ms i → slots[i]? = some (p.slot f))

theorem holds_ready (p : Pipeline) (parser : Text) (verdict : Text → Verdict)
    (fragments : List Fragment) : p.Holds parser verdict fragments [] (fragments.map p.slot) := by
  refine ⟨List.length_map _, fun i f hf => ⟨?_, ?_⟩⟩
  · rintro ⟨a, ha, -⟩
    simp at ha
  · intro _
    rw [List.getElem?_map, hf]
    rfl

theorem Holds.other {p : Pipeline} {parser : Text} {verdict : Text → Verdict}
    {fragments : List Fragment} {ms : List Moment} {slots : List Slot}
    (h : p.Holds parser verdict fragments ms slots) {m : Moment} (hm : ∀ a, m ≠ .finish a) :
    p.Holds parser verdict fragments (ms ++ [m]) slots := by
  obtain ⟨hlen, hslots⟩ := h
  refine ⟨hlen, fun i f hf => ?_⟩
  rw [finished_other hm]
  exact hslots i f hf

/-- A slot that waits belongs to a fragment that was handed over and has no verdict yet. -/
theorem Holds.waiting {p : Pipeline} {parser : Text} {verdict : Text → Verdict}
    {fragments : List Fragment} {ms : List Moment} {slots : List Slot}
    (h : p.Holds parser verdict fragments ms slots) {i : Nat} {trimmed : Fragment}
    (hslot : slots[i]? = some (.waiting trimmed)) :
    ∃ f code, fragments[i]? = some f ∧ f.asked? = some code ∧ trimmed = f.trimmed ∧
      ¬ Finished ms i := by
  obtain ⟨hlen, hslots⟩ := h
  obtain ⟨hi, -⟩ := List.getElem?_eq_some_iff.mp hslot
  obtain ⟨f, hf⟩ : ∃ f, fragments[i]? = some f := ⟨_, List.getElem?_eq_getElem (hlen ▸ hi)⟩
  obtain ⟨hdone, hopen⟩ := hslots i f hf
  have hnot : ¬ Finished ms i := by
    intro hfin
    rw [hdone hfin] at hslot
    simp at hslot
  have heq := hopen hnot
  rw [hslot] at heq
  cases ha : f.asked? with
  | none =>
    rw [p.slot_of_blank ha] at heq
    simp at heq
  | some code =>
    rw [p.slot_of_asked ha] at heq
    exact ⟨f, code, hf, ha, by simpa using heq, hnot⟩

theorem Holds.finish {p : Pipeline} {parser : Text} {verdict : Text → Verdict}
    {fragments : List Fragment} {ms : List Moment} {slots : List Slot}
    (h : p.Holds parser verdict fragments ms slots) {a : Arrival} {trimmed : Fragment}
    (hslot : slots[a.slot]? = some (.waiting trimmed))
    (hverdict : ∀ f, fragments[a.slot]? = some f → a.verdict = verdict (Text.trim f.code)) :
    p.Holds parser verdict fragments (ms ++ [.finish a]) (p.arrive parser slots a).1 := by
  obtain ⟨f, code, hf, ha, rfl, -⟩ := h.waiting hslot
  obtain ⟨hlen, hslots⟩ := h
  obtain ⟨hi, -⟩ := List.getElem?_eq_some_iff.mp hslot
  rw [arrive_waiting hslot, hverdict f hf, judge_eq_expected ha]
  refine ⟨by rw [List.length_set, hlen], fun j f' hf' => ?_⟩
  by_cases hj : j = a.slot
  · subst hj
    obtain rfl : f = f' := by simpa [hf] using hf'
    have hfin : Finished (ms ++ [.finish a]) a.slot := finished_snoc.mpr (.inr ⟨a, rfl, rfl⟩)
    refine ⟨fun _ => ?_, fun hnot => absurd hfin hnot⟩
    rw [List.getElem?_set_self hi]
  · rw [List.getElem?_set_ne (Ne.symm hj)]
    have hiff : Finished (ms ++ [.finish a]) j ↔ Finished ms j := by
      rw [finished_snoc]
      constructor
      · rintro (hfin | ⟨b, hb, hbj⟩)
        · exact hfin
        · obtain rfl := Moment.finish.inj hb
          exact absurd hbj.symm hj
      · exact .inl
    rw [hiff]
    exact hslots j f' hf'

/-- Once all verdicts are there, the slots hold what is found at the fragments. -/
theorem Holds.findings?_eq {p : Pipeline} {parser : Text} {verdict : Text → Verdict}
    {fragments : List Fragment} {ms : List Moment} {slots : List Slot}
    (h : p.Holds parser verdict fragments ms slots)
    (hdone : ∀ i f, fragments[i]? = some f → f.asked?.isSome → Finished ms i) :
    findings? slots = some (fragments.filterMap (p.expected parser verdict)) := by
  obtain ⟨hlen, hslots⟩ := h
  have heq : slots = (fragments.map (p.expected parser verdict)).map .settled := by
    apply List.ext_getElem?
    intro i
    rw [List.getElem?_map, List.getElem?_map]
    cases hf : fragments[i]? with
    | none =>
      have hle := List.getElem?_eq_none_iff.mp hf
      exact List.getElem?_eq_none_iff.mpr (by omega)
    | some f =>
      obtain ⟨hfin, hopen⟩ := hslots i f hf
      by_cases hfinished : Finished ms i
      · exact hfin hfinished
      · have hblank : f.asked? = none := by
          by_contra hne
          exact hfinished (hdone i f hf (Option.isSome_iff_ne_none.mpr hne))
        rw [hopen hfinished, slot_eq_settled hblank]
        rfl
  rw [heq, findings?_settled, List.filterMap_map]
  rfl

theorem Holds.finished_of_findings? {p : Pipeline} {parser : Text} {verdict : Text → Verdict}
    {fragments : List Fragment} {ms : List Moment} {slots : List Slot} {found : List Finding}
    (h : p.Holds parser verdict fragments ms slots) (hfound : findings? slots = some found)
    {i : Nat} {f : Fragment} (hf : fragments[i]? = some f) (hasked : f.asked?.isSome) :
    Finished ms i := by
  by_contra hnot
  obtain ⟨code, ha⟩ := Option.isSome_iff_exists.mp hasked
  have hslot := (h.2 i f hf).2 hnot
  rw [p.slot_of_asked ha] at hslot
  rw [findings?_eq_none_of_waiting hslot] at hfound
  simp at hfound

/-- The code about which the parser is asked for the fragment of a given number. -/
def askedAt (fragments : List Fragment) (i : Nat) : Option Text :=
  fragments[i]?.bind Fragment.asked?

theorem filterMap_askedAt (fragments : List Fragment) :
    (List.range fragments.length).filterMap (askedAt fragments) =
      fragments.filterMap Fragment.asked? := by
  have hall : (List.range fragments.length).map (fun i => fragments[i]?) =
      fragments.map some := by
    apply List.ext_getElem?
    intro i
    rw [List.getElem?_map, List.getElem?_map]
    by_cases hi : i < fragments.length
    · simp [List.getElem?_range hi, List.getElem?_eq_getElem hi]
    · rw [List.getElem?_eq_none_iff.mpr (by simpa using hi),
        List.getElem?_eq_none_iff.mpr (by simpa using hi)]
      rfl
  calc (List.range fragments.length).filterMap (askedAt fragments)
      = ((List.range fragments.length).map (fun i => fragments[i]?)).filterMap
          (·.bind Fragment.asked?) := by rw [List.filterMap_map]; rfl
    _ = fragments.filterMap Fragment.asked? := by rw [hall, List.filterMap_map]; rfl

theorem asked_subperm {fragments : List Fragment} {begun : List Nat} (hnodup : begun.Nodup)
    (hinside : ∀ i ∈ begun, i < fragments.length) :
    (begun.filterMap (askedAt fragments)).Subperm (fragments.filterMap Fragment.asked?) := by
  have hsub : begun.Subperm (List.range fragments.length) :=
    hnodup.subperm fun i hi => List.mem_range.mpr (hinside i hi)
  obtain ⟨l, hperm, hl⟩ := hsub
  rw [← filterMap_askedAt fragments]
  exact ⟨l.filterMap (askedAt fragments), hperm.filterMap _, hl.filterMap _⟩

theorem asked_perm {fragments : List Fragment} {begun : List Nat} (hnodup : begun.Nodup)
    (hall : ∀ i, i ∈ begun ↔ i < fragments.length) :
    (begun.filterMap (askedAt fragments)).Perm (fragments.filterMap Fragment.asked?) := by
  have hperm : begun.Perm (List.range fragments.length) := by
    rw [List.perm_ext_iff_of_nodup hnodup List.nodup_range]
    intro i
    rw [hall i, List.mem_range]
  rw [← filterMap_askedAt fragments]
  exact hperm.filterMap _

/-- What is known of a run at every moment of its course. -/
structure Known (p : Pipeline) (parser : Text) (verdict : Text → Verdict)
    (fragments : List Fragment) (ms : List Moment) (g : Gathering) : Prop where
  slots : p.Holds parser verdict fragments ms g.slots
  begun : ∀ i, i ∈ g.begun ↔ .begin i ∈ ms
  nodup : g.begun.Nodup
  inside : ∀ i ∈ g.begun, i < fragments.length
  finished : ∀ i, Finished ms i → i ∈ g.begun
  asked : Event.codes g.log = g.begun.filterMap (askedAt fragments)
  joined : g.joined = true ↔ .join ∈ ms
  silent : g.joined = false → Event.findings g.log = []
  reported : g.joined = true → Completed fragments ms ∧
    Event.findings g.log = fragments.filterMap (p.expected parser verdict)

theorem known_ready (p : Pipeline) (parser : Text) (verdict : Text → Verdict)
    (fragments : List Fragment) :
    p.Known parser verdict fragments [] (Gathering.ready p fragments) where
  slots := p.holds_ready parser verdict fragments
  begun := by simp [Gathering.ready]
  nodup := List.nodup_nil
  inside := by simp [Gathering.ready]
  finished := by simp [Finished]
  asked := rfl
  joined := by simp [Gathering.ready]
  silent := fun _ => rfl
  reported := by simp [Gathering.ready]

section Step

variable {p : Pipeline} {parser : Text} {verdict : Text → Verdict} {fragments : List Fragment}
  {ms : List Moment} {g : Gathering}

/-- A fragment that begins finds its slot as it was at first. -/
theorem Known.code?_of_new (h : p.Known parser verdict fragments ms g) {i : Nat} {slot : Slot}
    (hslot : g.slots[i]? = some slot) (hnew : i ∉ g.begun) :
    i < fragments.length ∧ slot.code? = askedAt fragments i := by
  obtain ⟨hi, -⟩ := List.getElem?_eq_some_iff.mp hslot
  have hlen : i < fragments.length := h.slots.1 ▸ hi
  have hf : fragments[i]? = some fragments[i] := List.getElem?_eq_getElem hlen
  have hnot : ¬ Finished ms i := fun hfin => hnew (h.finished i hfin)
  have heq := (h.slots.2 i _ hf).2 hnot
  rw [hslot] at heq
  obtain rfl : slot = p.slot fragments[i] := by simpa using heq
  refine ⟨hlen, ?_⟩
  rw [p.code?_slot, askedAt, hf]
  rfl

theorem Known.begin (h : p.Known parser verdict fragments ms g) {i : Nat} {slot : Slot}
    (hslot : g.slots[i]? = some slot) (hnew : i ∉ g.begun) :
    p.Known parser verdict fragments (ms ++ [.begin i])
      { g with
        begun := g.begun ++ [i]
        log := g.log ++ slot.code?.toList.map .call } := by
  obtain ⟨hlen, hcode⟩ := h.code?_of_new hslot hnew
  have hsub : ms ⊆ ms ++ [.begin i] := List.subset_append_left ms _
  constructor
  case slots => exact h.slots.other (by simp)
  case begun =>
    intro j
    simp [h.begun j]
  case nodup =>
    have hdisjoint : List.Disjoint g.begun [i] := by simpa using hnew
    exact h.nodup.append (List.nodup_singleton i) hdisjoint
  case inside =>
    intro j hj
    obtain hmem | rfl := by simpa using hj
    · exact h.inside j hmem
    · exact hlen
  case finished =>
    intro j hfin
    exact List.mem_append_left _ (h.finished j ((finished_other (by simp)).mp hfin))
  case asked =>
    rw [Event.codes_append, Event.codes_map_call, h.asked, List.filterMap_append, hcode]
    cases hasked : askedAt fragments i <;> simp [hasked]
  case joined => simp [h.joined]
  case silent =>
    intro hj
    simpa using h.silent hj
  case reported =>
    intro hj
    obtain ⟨hdone, hfound⟩ := h.reported hj
    exact ⟨hdone.mono hsub, by simpa using hfound⟩

theorem Known.finish (h : p.Known parser verdict fragments ms g) {a : Arrival}
    {trimmed : Fragment} (hslot : g.slots[a.slot]? = some (.waiting trimmed))
    (hbegun : a.slot ∈ g.begun)
    (hverdict : ∀ f, fragments[a.slot]? = some f → a.verdict = verdict (Text.trim f.code)) :
    p.Known parser verdict fragments (ms ++ [.finish a])
      { g with
        slots := (p.arrive parser g.slots a).1
        log := g.log ++ (p.arrive parser g.slots a).2.map .notice } := by
  have hsub : ms ⊆ ms ++ [.finish a] := List.subset_append_left ms _
  constructor
  case slots => exact h.slots.finish hslot hverdict
  case begun =>
    intro j
    simp [h.begun j]
  case nodup => exact h.nodup
  case inside => exact h.inside
  case finished =>
    intro j hfin
    obtain hold | ⟨b, hb, rfl⟩ := finished_snoc.mp hfin
    · exact h.finished j hold
    · rw [← Moment.finish.inj hb]
      exact hbegun
  case asked => simpa using h.asked
  case joined => simp [h.joined]
  case silent =>
    intro hj
    simpa using h.silent hj
  case reported =>
    intro hj
    obtain ⟨hdone, hfound⟩ := h.reported hj
    exact ⟨hdone.mono hsub, by simpa using hfound⟩

theorem Known.join (h : p.Known parser verdict fragments ms g) {found : List Finding}
    (hall : ∀ i < g.slots.length, i ∈ g.begun) (hfound : findings? g.slots = some found)
    (hjoined : g.joined = false) :
    p.Known parser verdict fragments (ms ++ [.join])
      { g with
        log := g.log ++ found.map .report
        joined := true } := by
  have hdone : Completed fragments ms := by
    intro i f hf
    obtain ⟨hi, -⟩ := List.getElem?_eq_some_iff.mp hf
    have hmem : i ∈ g.begun := hall i (by rw [h.slots.1]; exact hi)
    exact ⟨(h.begun i).mp hmem, h.slots.finished_of_findings? hfound hf⟩
  have heq : found = fragments.filterMap (p.expected parser verdict) := by
    have := h.slots.findings?_eq fun i f hf hasked => (hdone i f hf).2 hasked
    rw [hfound] at this
    simpa using this
  constructor
  case slots => exact h.slots.other (by simp)
  case begun =>
    intro j
    simp [h.begun j]
  case nodup => exact h.nodup
  case inside => exact h.inside
  case finished =>
    intro j hfin
    exact h.finished j ((finished_other (by simp)).mp hfin)
  case asked => simpa using h.asked
  case joined => simp
  case silent => simp
  case reported =>
    intro _
    refine ⟨hdone.mono (List.subset_append_left ms _), ?_⟩
    rw [Event.findings_append, Event.findings_map_report, h.silent hjoined, heq]
    rfl

end Step

/-- Whatever the order of its moments, a run is known at each of them. -/
theorem known_of_course {p : Pipeline} {parser : Text} {verdict : Text → Verdict}
    {fragments : List Fragment} {ms : List Moment} {g : Gathering}
    (h : Course (Gathering.Step p parser) (.ready p fragments) ms g)
    (hhonest : Honest verdict fragments ms) : p.Known parser verdict fragments ms g := by
  induction h with
  | start => exact p.known_ready parser verdict fragments
  | @next ms m t u _ hstep ih =>
    have hknown := ih (hhonest.mono (List.subset_append_left ms [m]))
    cases hstep with
    | begin hslot hnew => exact hknown.begin hslot hnew
    | @finish a _ hslot hbegun => exact hknown.finish hslot hbegun (hhonest a (by simp))
    | join hall hfound hjoined => exact hknown.join hall hfound hjoined

/-- The moments of a run whose fragments have all begun before the first verdict arrives. -/
def moments (n : Nat) (arrivals : List Arrival) : List Moment :=
  (List.range n).map .begin ++ arrivals.map .finish ++ [.join]

theorem course_begin (p : Pipeline) (parser : Text) (slots : List Slot) {n : Nat}
    (hn : n ≤ slots.length) :
    Course (Gathering.Step p parser) { slots } ((List.range n).map .begin)
      { slots, begun := List.range n, log := ((slots.take n).filterMap Slot.code?).map .call } := by
  induction n with
  | zero => exact .start
  | succ n ih =>
    have hslot : slots[n]? = some slots[n] := List.getElem?_eq_getElem hn
    have hstep := Course.next (ih (by omega)) (.begin hslot (by simp))
    rw [List.range_succ, List.map_append, List.take_add_one, hslot, Option.toList_some,
      List.filterMap_append, List.map_append]
    cases hcode : slots[n].code? <;> simpa [hcode] using hstep

theorem length_arriveAll (p : Pipeline) (parser : Text) (slots : List Slot)
    (arrivals : List Arrival) : (p.arriveAll parser slots arrivals).1.length = slots.length := by
  induction arrivals generalizing slots with
  | nil => rfl
  | cons a arrivals ih =>
    have hone : (p.arrive parser slots a).1.length = slots.length := by
      unfold arrive
      split <;> simp
    rw [arriveAll, ih, hone]

/-- Verdicts that arrive at different slots are each waited for when they arrive. -/
theorem course_finish (p : Pipeline) (parser : Text) {begun : List Nat} {slots : List Slot}
    {arrivals : List Arrival} (hnodup : (arrivals.map Arrival.slot).Nodup)
    (hwaiting : ∀ a ∈ arrivals, ∃ trimmed, slots[a.slot]? = some (.waiting trimmed))
    (hbegun : ∀ a ∈ arrivals, a.slot ∈ begun) (log : List Event) :
    Course (Gathering.Step p parser) { slots, begun, log } (arrivals.map .finish)
      { slots := (p.arriveAll parser slots arrivals).1
        begun
        log := log ++ (p.arriveAll parser slots arrivals).2.map .notice } := by
  induction arrivals generalizing slots log with
  | nil => simpa [arriveAll] using Course.start
  | cons a arrivals ih =>
    rw [List.map_cons, List.nodup_cons] at hnodup
    obtain ⟨hfresh, hnodup⟩ := hnodup
    obtain ⟨⟨trimmed, hslot⟩, hwaiting⟩ := List.forall_mem_cons.mp hwaiting
    obtain ⟨hmem, hbegun⟩ := List.forall_mem_cons.mp hbegun
    have hothers : ∀ b ∈ arrivals, ∃ trimmed,
        (p.arrive parser slots a).1[b.slot]? = some (.waiting trimmed) := by
      intro b hb
      have hne : a.slot ≠ b.slot := by
        intro heq
        exact hfresh (heq ▸ List.mem_map_of_mem hb)
      rw [arrive_waiting hslot, List.getElem?_set_ne hne]
      exact hwaiting b hb
    have hrest := ih hnodup hothers hbegun (log ++ (p.arrive parser slots a).2.map .notice)
    have hstep : Gathering.Step p parser { slots, begun, log } (.finish a)
        { slots := (p.arrive parser slots a).1
          begun
          log := log ++ (p.arrive parser slots a).2.map .notice } := .finish hslot hmem
    simpa [arriveAll] using Course.cons hstep hrest

/-- A run with verdicts that arrive in a given order is such a course. -/
theorem course_of_gather {p : Pipeline} {parser : Text} {fragments : List Fragment}
    {arrivals : List Arrival} {events : List Event}
    (hnodup : (arrivals.map Arrival.slot).Nodup)
    (hwaiting : ∀ a ∈ arrivals, ∃ f, fragments[a.slot]? = some f ∧ f.asked?.isSome)
    (h : p.gather parser fragments arrivals = some events) :
    ∃ g, Course (Gathering.Step p parser) (.ready p fragments)
      (moments fragments.length arrivals) g ∧ g.log = events := by
  obtain ⟨found, hfound, rfl⟩ := Option.map_eq_some_iff.mp h
  have hslots : ∀ a ∈ arrivals, ∃ trimmed,
      (fragments.map p.slot)[a.slot]? = some (.waiting trimmed) := by
    intro a ha
    obtain ⟨f, hf, hasked⟩ := hwaiting a ha
    obtain ⟨code, hcode⟩ := Option.isSome_iff_exists.mp hasked
    exact ⟨f.trimmed, by rw [List.getElem?_map, hf, Option.map_some, p.slot_of_asked hcode]⟩
  have hbegun : ∀ a ∈ arrivals, a.slot ∈ List.range fragments.length := by
    intro a ha
    obtain ⟨f, hf, -⟩ := hwaiting a ha
    exact List.mem_range.mpr (List.getElem?_eq_some_iff.mp hf).1
  have hlen : (fragments.map p.slot).length = fragments.length := List.length_map _
  have hbegin := p.course_begin parser (fragments.map p.slot) (Nat.le_of_eq hlen.symm)
  rw [List.take_of_length_le (Nat.le_of_eq hlen)] at hbegin
  have hfinish := p.course_finish parser hnodup hslots hbegun
    (((fragments.map p.slot).filterMap Slot.code?).map .call)
  have hall : ∀ i < (p.arriveAll parser (fragments.map p.slot) arrivals).1.length,
      i ∈ List.range fragments.length := by
    intro i hi
    rw [length_arriveAll, hlen] at hi
    exact List.mem_range.mpr hi
  exact ⟨_, .next (hbegin.append hfinish) (.join hall hfound rfl), rfl⟩

section Serve

variable {σ : Type}

theorem mem_arrivals {n : Nat} {vs : List (Visit σ)} {a : Arrival} (h : a ∈ arrivals n vs) :
    ∃ i v answer, vs[i]? = some v ∧ v.answer = some answer ∧
      a = ⟨n + i, answer.verdict, answer.notices⟩ := by
  induction vs generalizing n with
  | nil => simp [arrivals] at h
  | cons v vs ih =>
    have hlater : a ∈ arrivals (n + 1) vs → ∃ i u answer, (v :: vs)[i]? = some u ∧
        u.answer = some answer ∧ a = ⟨n + i, answer.verdict, answer.notices⟩ := by
      intro hmem
      obtain ⟨i, u, answer, hu, hans, rfl⟩ := ih hmem
      exact ⟨i + 1, u, answer, hu, hans, by rw [Nat.add_right_comm, Nat.add_assoc]⟩
    cases hans : v.answer with
    | none =>
      rw [arrivals, hans] at h
      exact hlater h
    | some answer =>
      rw [arrivals, hans] at h
      obtain rfl | hmem := List.mem_cons.mp h
      · exact ⟨0, v, answer, rfl, hans, rfl⟩
      · exact hlater hmem

theorem nodup_arrivals (n : Nat) (vs : List (Visit σ)) :
    ((arrivals n vs).map Arrival.slot).Nodup := by
  induction vs generalizing n with
  | nil => exact List.nodup_nil
  | cons v vs ih =>
    cases hans : v.answer with
    | none =>
      rw [arrivals, hans]
      exact ih (n + 1)
    | some answer =>
      rw [arrivals, hans]
      refine List.nodup_cons.mpr ⟨?_, ih (n + 1)⟩
      intro hmem
      obtain ⟨a, ha, heq⟩ := List.mem_map.mp hmem
      obtain ⟨i, u, answer', -, -, rfl⟩ := mem_arrivals ha
      simp only at heq
      omega

/-- A parser that serves the fragments in their order is one such course. -/
theorem course_of_runFull {p : Pipeline} {c : Checker σ} {fragments : List Fragment} {s t : σ}
    {events : List Event} (h : p.runFull c fragments s = some (events, t)) :
    ∃ vs g, c.visits? fragments s = some (vs, t) ∧
      Course (Gathering.Step p c.name) (.ready p fragments)
        (moments fragments.length (arrivals 0 vs)) g ∧ g.log = events := by
  rw [runFull, serve_eq] at h
  simp only [Option.bind_eq_bind, Option.bind_eq_some_iff, Option.map_eq_some_iff,
    Option.pure_def, Option.some.injEq, Prod.mk.injEq] at h
  obtain ⟨⟨as, u⟩, ⟨⟨vs, w⟩, hvs, rfl, rfl⟩, events', hgather, rfl, rfl⟩ := h
  obtain ⟨hfrag, hproper⟩ := Checker.visits?_spec hvs
  have hwaiting : ∀ a ∈ arrivals 0 vs, ∃ f, fragments[a.slot]? = some f ∧ f.asked?.isSome := by
    intro a ha
    obtain ⟨i, v, answer, hv, hans, rfl⟩ := mem_arrivals ha
    refine ⟨v.fragment, ?_, ?_⟩
    · rw [← hfrag, List.getElem?_map, Nat.zero_add, hv]
      rfl
    · rw [← hproper v (List.mem_of_getElem? hv), hans]
      rfl
  obtain ⟨g, hcourse, hlog⟩ := course_of_gather (nodup_arrivals 0 vs) hwaiting hgather
  exact ⟨vs, g, hvs, hcourse, hlog⟩

end Serve

theorem runSync_ofVerdicts (p : Pipeline) (parser : Text) (verdict : Text → Verdict)
    (fragments : List Fragment) : ∃ events,
    p.runSync (.ofVerdicts parser false verdict) fragments () = some (events, ()) ∧
      Event.findings events = fragments.filterMap (p.expected parser verdict) ∧
      Event.codes events = fragments.filterMap Fragment.asked? := by
  have hout := p.runSync_outside (.ofVerdicts parser false verdict) fragments ()
  rw [Checker.visits?_ofVerdicts, Option.map_some] at hout
  obtain ⟨⟨events, u⟩, hrun, heq⟩ := Option.map_eq_some_iff.mp hout
  simp only [outside, outsideOf, List.filterMap_map, Prod.mk.injEq] at heq
  exact ⟨events, hrun, heq.1, heq.2.1⟩

/-- At every moment of its course, a run with several fragments under way has done nothing
that differs from what the events of a run one by one tell. -/
structure AsOneByOne (p : Pipeline) (parser : Text) (fragments : List Fragment)
    (events : List Event) (ms : List Moment) (g : Gathering) : Prop where
  /-- No code is asked about more often than it should be. -/
  asked : (Event.codes g.log).Subperm (Event.codes events)
  /-- Nothing is reported before all verdicts are there. -/
  silent : Event.findings g.log ≠ [] → Completed fragments ms
  /-- Once all verdicts are there, the findings can be reported. -/
  joins : Completed fragments ms → .join ∉ ms → ∃ g', Gathering.Step p parser g .join g'
  /-- They are not reported before, and every code has been asked about then. -/
  completed : .join ∈ ms →
    Completed fragments ms ∧ (Event.codes g.log).Perm (Event.codes events)
  /-- The findings and their order are those of the run one by one. -/
  reported : .join ∈ ms → Event.findings g.log = Event.findings events

theorem Known.asOneByOne {p : Pipeline} {parser : Text} {verdict : Text → Verdict}
    {fragments : List Fragment} {ms : List Moment} {g : Gathering} {events : List Event}
    (h : p.Known parser verdict fragments ms g)
    (hfindings : Event.findings events = fragments.filterMap (p.expected parser verdict))
    (hcodes : Event.codes events = fragments.filterMap Fragment.asked?) :
    p.AsOneByOne parser fragments events ms g := by
  constructor
  case asked =>
    rw [h.asked, hcodes]
    exact asked_subperm h.nodup h.inside
  case silent =>
    intro hne
    cases hj : g.joined with
    | false => exact absurd (h.silent hj) hne
    | true => exact (h.reported hj).1
  case joins =>
    intro hdone hjoin
    have hfound := h.slots.findings?_eq fun i f hf hasked => (hdone i f hf).2 hasked
    have hall : ∀ i < g.slots.length, i ∈ g.begun := by
      intro i hi
      rw [h.slots.1] at hi
      exact (h.begun i).mpr (hdone i _ (List.getElem?_eq_getElem hi)).1
    have hjoined : g.joined = false := by
      cases hj : g.joined with
      | false => rfl
      | true => exact absurd (h.joined.mp hj) hjoin
    exact ⟨_, .join hall hfound hjoined⟩
  case completed =>
    intro hjoin
    obtain ⟨hdone, -⟩ := h.reported (h.joined.mpr hjoin)
    refine ⟨hdone, ?_⟩
    rw [h.asked, hcodes]
    refine asked_perm h.nodup fun i => ⟨h.inside i, fun hi => ?_⟩
    exact (h.begun i).mpr (hdone i _ (List.getElem?_eq_getElem hi)).1
  case reported =>
    intro hjoin
    rw [(h.reported (h.joined.mpr hjoin)).2, hfindings]

theorem honest_of_visits {verdict : Text → Verdict} {fragments : List Fragment} :
    Honest verdict fragments
      (moments fragments.length (arrivals 0 (fragments.map (Visit.ofVerdict verdict)))) := by
  intro a ha f hf
  have hmem : a ∈ arrivals 0 (fragments.map (Visit.ofVerdict verdict)) := by
    simpa [moments] using ha
  obtain ⟨i, v, answer, hv, hans, rfl⟩ := mem_arrivals hmem
  rw [Nat.zero_add] at hf
  rw [List.getElem?_map, hf] at hv
  obtain rfl : Visit.ofVerdict verdict f = v := by simpa using hv
  obtain ⟨code, hcode, rfl⟩ := Option.map_eq_some_iff.mp hans
  obtain ⟨rfl, -⟩ := Fragment.asked?_eq_some_iff.mp hcode
  rfl

/-- Whatever the order in which fragments begin and verdicts arrive, a run with several
fragments under way asks about the code of each fragment that is not blank once, reports
nothing before all verdicts are there, and then reports what a run one by one reports. The run
that serves the fragments in their order is one of these courses. -/
theorem reports_in_every_order (p : Pipeline) (parser : Text) (verdict : Text → Verdict)
    (fragments : List Fragment) : ∃ events,
    p.runSync (.ofVerdicts parser false verdict) fragments () = some (events, ()) ∧
    Event.codes events = fragments.filterMap Fragment.asked? ∧
    (∀ ms g, Course (Gathering.Step p parser) (.ready p fragments) ms g →
      Honest verdict fragments ms → p.AsOneByOne parser fragments events ms g) ∧
    ∃ ms g, Course (Gathering.Step p parser) (.ready p fragments) ms g ∧
      Honest verdict fragments ms ∧ .join ∈ ms ∧
      p.runFull (.ofVerdicts parser true verdict) fragments () = some (g.log, ()) := by
  obtain ⟨events, hsync, hfindings, hcodes⟩ := p.runSync_ofVerdicts parser verdict fragments
  refine ⟨events, hsync, hcodes, ?_, ?_⟩
  · intro ms g hcourse hhonest
    exact (known_of_course hcourse hhonest).asOneByOne hfindings hcodes
  · have hout := p.runFull_outside (.ofVerdicts parser true verdict) fragments ()
    rw [Checker.visits?_ofVerdicts, Option.map_some] at hout
    obtain ⟨⟨full, u⟩, hrun, -⟩ := Option.map_eq_some_iff.mp hout
    obtain ⟨vs, g, hvs, hcourse, rfl⟩ := course_of_runFull hrun
    rw [Checker.visits?_ofVerdicts] at hvs
    obtain ⟨rfl, -⟩ : fragments.map (Visit.ofVerdict verdict) = vs ∧ () = u := by
      simpa using hvs
    exact ⟨_, g, hcourse, honest_of_visits, by simp [moments], hrun⟩

end FragmentLint.Pipeline
