import FragmentLint.Validation.Run

/-!
# What a run visits

A run meets its fragments one after another, whichever way its parser works. A visit says what
happened at one fragment: the state in which it was met and, unless it was blank, the parser's
answer. The visits of a run are computed here without any event; what a run reports, which
codes it asks about and the state that it leaves are then read off its visits. In particular
a parser that has several pieces of code under way and serves them in turn reports what it
would report if it were asked one piece at a time.
-/
namespace FragmentLint

namespace Event

def findings (events : List Event) : List Finding :=
  events.filterMap finding?

/-- The pieces of code that events ask about, in order. -/
def codes (events : List Event) : List Text :=
  events.filterMap code?

@[simp] theorem findings_nil : findings [] = [] := rfl

@[simp] theorem codes_nil : codes [] = [] := rfl

@[simp] theorem findings_append (es fs : List Event) :
    findings (es ++ fs) = findings es ++ findings fs :=
  List.filterMap_append

@[simp] theorem codes_append (es fs : List Event) : codes (es ++ fs) = codes es ++ codes fs :=
  List.filterMap_append

@[simp] theorem findings_cons_call (code : Text) (es : List Event) :
    findings (.call code :: es) = findings es := rfl

@[simp] theorem codes_cons_call (code : Text) (es : List Event) :
    codes (.call code :: es) = code :: codes es := rfl

@[simp] theorem findings_cons_report (f : Finding) (es : List Event) :
    findings (.report f :: es) = f :: findings es := rfl

@[simp] theorem codes_cons_report (f : Finding) (es : List Event) :
    codes (.report f :: es) = codes es := rfl

@[simp] theorem findings_map_call (cs : List Text) : findings (cs.map .call) = [] := by
  induction cs with
  | nil => rfl
  | cons c cs ih => exact ih

@[simp] theorem codes_map_call (cs : List Text) : codes (cs.map .call) = cs := by
  induction cs with
  | nil => rfl
  | cons c cs ih => simpa using ih

@[simp] theorem findings_map_notice (ns : List Notice) : findings (ns.map .notice) = [] := by
  induction ns with
  | nil => rfl
  | cons n ns ih => exact ih

@[simp] theorem codes_map_notice (ns : List Notice) : codes (ns.map .notice) = [] := by
  induction ns with
  | nil => rfl
  | cons n ns ih => exact ih

@[simp] theorem findings_map_report (fs : List Finding) : findings (fs.map .report) = fs := by
  induction fs with
  | nil => rfl
  | cons f fs ih => simpa using ih

@[simp] theorem codes_map_report (fs : List Finding) : codes (fs.map .report) = [] := by
  induction fs with
  | nil => rfl
  | cons f fs ih => exact ih

end Event

namespace Fragment

/-- The code about which a parser is asked for a fragment: the trimmed one, and none if the
fragment is blank. -/
def asked? (f : Fragment) : Option Text :=
  Text.nonempty? (Text.trim f.code)

theorem asked?_eq_none_iff {f : Fragment} : f.asked? = none ↔ Text.trim f.code = [] := by
  by_cases h : Text.trim f.code = [] <;> simp [asked?, Text.nonempty?, h]

theorem asked?_eq_some_iff {f : Fragment} {code : Text} :
    f.asked? = some code ↔ code = Text.trim f.code ∧ code ≠ [] := by
  by_cases h : Text.trim f.code = []
  · simp only [asked?, Text.nonempty?, h, if_true, reduceCtorEq, false_iff]
    rintro ⟨rfl, hne⟩
    exact hne rfl
  · simp only [asked?, Text.nonempty?, h, if_false, Option.some.injEq]
    constructor
    · rintro rfl
      exact ⟨rfl, h⟩
    · rintro ⟨rfl, -⟩
      rfl

theorem notEmpty_of_blank {f : Fragment} (family : Family) (h : f.asked? = none) :
    Precheck.notEmpty family f = .error (Template.emptyContent family f.start) := by
  simp [Precheck.notEmpty, trimmed, asked?_eq_none_iff.mp h]

theorem notEmpty_of_asked {f : Fragment} {code : Text} (family : Family)
    (h : f.asked? = some code) :
    Precheck.notEmpty family f = .ok f.trimmed ∧ f.trimmed.code = code := by
  obtain ⟨rfl, hne⟩ := asked?_eq_some_iff.mp h
  exact ⟨by simp [Precheck.notEmpty, trimmed, hne], rfl⟩

end Fragment

/-- What happened at one fragment of a run. -/
structure Visit (σ : Type) where
  fragment : Fragment
  /-- The state in which the fragment was met. -/
  before : σ
  /-- The answer of the parser, if it was asked. -/
  answer : Option (Checked σ)

namespace Visit

variable {σ : Type}

def after (v : Visit σ) : σ :=
  (v.answer.map Checked.state).getD v.before

def finding? (p : Pipeline) (parser : Text) (v : Visit σ) : Option Finding :=
  match v.answer with
  | none => some (Template.emptyContent p.family v.fragment.start)
  | some answer => (p.judge parser v.fragment.trimmed answer.verdict).1

def noted (p : Pipeline) (parser : Text) (v : Visit σ) : List Notice :=
  match v.answer with
  | none => []
  | some answer => answer.notices ++ (p.judge parser v.fragment.trimmed answer.verdict).2

/-- The visit of a fragment by a parser that answers by a fixed rule. -/
def ofVerdict (verdict : Text → Verdict) (f : Fragment) : Visit Unit :=
  ⟨f, (), f.asked?.map fun code => ⟨verdict code, [], ()⟩⟩

/-- Whether the parser was asked exactly if the fragment is not blank. -/
def IsProper (v : Visit σ) : Prop :=
  v.answer.isSome = v.fragment.asked?.isSome

end Visit

namespace Checker

variable {σ : Type}

/-- The visit of a fragment in a state. There is none if the parser never answers. -/
def visit? (c : Checker σ) (f : Fragment) (s : σ) : Option (Visit σ) :=
  match f.asked? with
  | none => some ⟨f, s, none⟩
  | some code => (c.check code s).map fun answer => ⟨f, s, some answer⟩

/-- The visits of fragments, each in the state that the one before left. -/
def visits? (c : Checker σ) : List Fragment → σ → Option (List (Visit σ) × σ)
  | [], s => some ([], s)
  | f :: fragments, s => do
    let v ← c.visit? f s
    let (vs, s) ← visits? c fragments v.after
    return (v :: vs, s)

theorem visit?_blank (c : Checker σ) {f : Fragment} (h : f.asked? = none) (s : σ) :
    c.visit? f s = some ⟨f, s, none⟩ := by
  simp [visit?, h]

theorem visit?_asked (c : Checker σ) {f : Fragment} {code : Text} (h : f.asked? = some code)
    (s : σ) : c.visit? f s = (c.check code s).map fun answer => ⟨f, s, some answer⟩ := by
  simp [visit?, h]

theorem visit?_spec {c : Checker σ} {f : Fragment} {s : σ} {v : Visit σ}
    (h : c.visit? f s = some v) : v.fragment = f ∧ v.before = s ∧ v.IsProper := by
  unfold visit? at h
  cases ha : f.asked? with
  | none =>
    simp only [ha, Option.some.injEq] at h
    subst h
    exact ⟨rfl, rfl, by simp [Visit.IsProper, ha]⟩
  | some code =>
    simp only [ha, Option.map_eq_some_iff] at h
    obtain ⟨answer, -, rfl⟩ := h
    exact ⟨rfl, rfl, by simp [Visit.IsProper, ha]⟩

theorem visits?_spec {c : Checker σ} {fragments : List Fragment} {s t : σ}
    {vs : List (Visit σ)} (h : c.visits? fragments s = some (vs, t)) :
    vs.map Visit.fragment = fragments ∧ ∀ v ∈ vs, v.IsProper := by
  induction fragments generalizing s vs with
  | nil =>
    simp only [visits?, Option.some.injEq, Prod.mk.injEq] at h
    obtain ⟨rfl, -⟩ := h
    simp
  | cons f fragments ih =>
    simp only [visits?, Option.bind_eq_bind, Option.bind_eq_some_iff, Option.pure_def,
      Option.some.injEq, Prod.mk.injEq] at h
    obtain ⟨v, hv, ⟨us, u⟩, hus, rfl, rfl⟩ := h
    obtain ⟨hfrag, -, hproper⟩ := visit?_spec hv
    obtain ⟨hmap, hall⟩ := ih hus
    exact ⟨by simp [hfrag, hmap], by simpa [hproper] using hall⟩

/-- A parser that answers whatever it is asked. -/
def Total (c : Checker σ) : Prop :=
  ∀ code s, (c.check code s).isSome

theorem Total.visit? {c : Checker σ} (h : c.Total) (f : Fragment) (s : σ) :
    ∃ v, c.visit? f s = some v := by
  cases ha : f.asked? with
  | none => exact ⟨_, c.visit?_blank ha s⟩
  | some code =>
    obtain ⟨answer, hcheck⟩ := Option.isSome_iff_exists.mp (h code s)
    exact ⟨⟨f, s, some answer⟩, by rw [c.visit?_asked ha, hcheck]; rfl⟩

theorem Total.visits? {c : Checker σ} (h : c.Total) (fragments : List Fragment) (s : σ) :
    ∃ vs t, c.visits? fragments s = some (vs, t) := by
  induction fragments generalizing s with
  | nil => exact ⟨[], s, rfl⟩
  | cons f fragments ih =>
    obtain ⟨v, hv⟩ := h.visit? f s
    obtain ⟨vs, t, hvs⟩ := ih v.after
    exact ⟨v :: vs, t, by simp [Checker.visits?, hv, hvs]⟩

/-- The state behind pieces of code that were asked about one after another. There is none if the
parser never answers about one of them. -/
def behind? (c : Checker σ) : List Text → σ → Option σ
  | [], s => some s
  | code :: codes, s => (c.check code s).bind fun answer => c.behind? codes answer.state

/-- What every answer preserves holds behind all of them. -/
theorem behind?_invariant {c : Checker σ} {I : σ → Prop}
    (hstep : ∀ {code s answer}, I s → c.check code s = some answer → I answer.state)
    {codes : List Text} {s t : σ} (hs : I s) (h : c.behind? codes s = some t) : I t := by
  induction codes generalizing s with
  | nil =>
    obtain rfl := Option.some.inj h
    exact hs
  | cons code codes ih =>
    obtain ⟨answer, hcheck, hrest⟩ := Option.bind_eq_some_iff.mp h
    exact ih (hstep hs hcheck) hrest

theorem behind?_append (c : Checker σ) (codes more : List Text) (s : σ) :
    c.behind? (codes ++ more) s = (c.behind? codes s).bind (c.behind? more) := by
  induction codes generalizing s with
  | nil => rfl
  | cons code codes ih =>
    rw [List.cons_append, behind?, behind?, Option.bind_assoc]
    simp only [ih]

/-- The visits of a run leave the state behind its codes. -/
theorem behind?_of_visits? {c : Checker σ} {fragments : List Fragment} {s t : σ}
    {vs : List (Visit σ)} (h : c.visits? fragments s = some (vs, t)) :
    c.behind? (fragments.filterMap Fragment.asked?) s = some t := by
  induction fragments generalizing s vs with
  | nil =>
    simp only [visits?, Option.some.injEq, Prod.mk.injEq] at h
    exact congrArg some h.2
  | cons f fragments ih =>
    simp only [visits?, Option.bind_eq_bind, Option.bind_eq_some_iff, Option.pure_def,
      Option.some.injEq, Prod.mk.injEq] at h
    obtain ⟨v, hv, ⟨us, u⟩, hus, -, rfl⟩ := h
    cases ha : f.asked? with
    | none =>
      rw [visit?_blank _ ha, Option.some.injEq] at hv
      rw [List.filterMap_cons_none ha, ← ih hus, ← hv]
      rfl
    | some code =>
      rw [visit?_asked _ ha] at hv
      obtain ⟨answer, hcheck, rfl⟩ := Option.map_eq_some_iff.mp hv
      rw [List.filterMap_cons_some ha, behind?, hcheck]
      exact ih hus

/-- The answers at the visits of a run are those about its codes, each in the state behind the
codes in front of it. -/
theorem answer_mem_visits? {c : Checker σ} {fragments : List Fragment} {s t : σ}
    {vs : List (Visit σ)} (h : c.visits? fragments s = some (vs, t)) (answer : Checked σ) :
    (∃ v ∈ vs, v.answer = some answer) ↔ ∃ codes code rest u,
      fragments.filterMap Fragment.asked? = codes ++ code :: rest ∧
      c.behind? codes s = some u ∧ c.check code u = some answer := by
  induction fragments generalizing s vs with
  | nil =>
    simp only [visits?, Option.some.injEq, Prod.mk.injEq] at h
    obtain ⟨rfl, -⟩ := h
    simp
  | cons f fragments ih =>
    simp only [visits?, Option.bind_eq_bind, Option.bind_eq_some_iff, Option.pure_def,
      Option.some.injEq, Prod.mk.injEq] at h
    obtain ⟨v, hv, ⟨us, u⟩, hus, rfl, rfl⟩ := h
    simp only [List.mem_cons, or_and_right, exists_or, exists_eq_left, ih hus]
    cases ha : f.asked? with
    | none =>
      rw [visit?_blank _ ha, Option.some.injEq] at hv
      subst hv
      simp [ha, Visit.after]
    | some first =>
      rw [visit?_asked _ ha] at hv
      obtain ⟨found, hcheck, rfl⟩ := Option.map_eq_some_iff.mp hv
      rw [List.filterMap_cons_some ha]
      simp only [Visit.after, Option.map_some, Option.getD_some, Option.some.injEq,
        List.cons_eq_append_iff]
      constructor
      · rintro (rfl | ⟨codes, code, rest, u, hcodes, hbehind, hanswer⟩)
        · exact ⟨[], first, _, s, .inl ⟨rfl, rfl⟩, rfl, hcheck⟩
        · exact ⟨first :: codes, code, rest, u, .inr ⟨codes, rfl, hcodes⟩,
            Option.bind_eq_some_iff.mpr ⟨found, hcheck, hbehind⟩, hanswer⟩
      · rintro ⟨codes, code, rest, u, ⟨rfl, hcodes⟩ | ⟨codes, rfl, hcodes⟩, hbehind, hanswer⟩
        · obtain rfl := Option.some.inj hbehind
          obtain ⟨rfl, -⟩ := List.cons.inj hcodes
          exact .inl (Option.some.inj (hcheck.symm.trans hanswer))
        · obtain ⟨found', hcheck', hbehind⟩ := Option.bind_eq_some_iff.mp hbehind
          obtain rfl := Option.some.inj (hcheck.symm.trans hcheck')
          exact .inr ⟨codes, code, rest, u, hcodes, hbehind, hanswer⟩

/-- The visits of a parser that answers by a fixed rule. -/
theorem visits?_ofVerdicts (name : Text) (concurrent : Bool) (verdict : Text → Verdict)
    (fragments : List Fragment) :
    (ofVerdicts name concurrent verdict).visits? fragments () =
      some (fragments.map (Visit.ofVerdict verdict), ()) := by
  induction fragments with
  | nil => rfl
  | cons f fragments ih =>
    have hv : (ofVerdicts name concurrent verdict).visit? f () =
        some (Visit.ofVerdict verdict f) := by
      cases ha : f.asked? with
      | none => rw [visit?_blank _ ha, Visit.ofVerdict, ha]; rfl
      | some code => rw [visit?_asked _ ha, Visit.ofVerdict, ha]; rfl
    simp only [visits?, hv, Option.bind_eq_bind, Option.bind_some]
    rw [ih]
    rfl

end Checker

namespace Pipeline

variable {σ : Type}

/-- What is known from outside of a run: its findings, the codes that it asked about and the
state behind it. -/
def outside (r : List Event × σ) : List Finding × List Text × σ :=
  (Event.findings r.1, Event.codes r.1, r.2)

def outsideOf (p : Pipeline) (parser : Text) (r : List (Visit σ) × σ) :
    List Finding × List Text × σ :=
  (r.1.filterMap (Visit.finding? p parser), r.1.filterMap (·.fragment.asked?), r.2)

/-- What a visit adds to what is known of the visits behind it. -/
def addVisit (p : Pipeline) (parser : Text) (v : Visit σ) (o : List Finding × List Text × σ) :
    List Finding × List Text × σ :=
  ((v.finding? p parser).toList ++ o.1, v.fragment.asked?.toList ++ o.2.1, o.2.2)

theorem outsideOf_cons (p : Pipeline) (parser : Text) (v : Visit σ)
    (r : List (Visit σ) × σ) :
    p.outsideOf parser (v :: r.1, r.2) = p.addVisit parser v (p.outsideOf parser r) := by
  cases hf : v.finding? p parser <;> cases ha : v.fragment.asked? <;>
    simp [outsideOf, addVisit, hf, ha]

theorem visits?_cons_outside (p : Pipeline) (c : Checker σ) (f : Fragment)
    (fragments : List Fragment) (s : σ) :
    (c.visits? (f :: fragments) s).map (p.outsideOf c.name) =
      (c.visit? f s).bind fun v =>
        ((c.visits? fragments v.after).map (p.outsideOf c.name)).map (p.addVisit c.name v) := by
  simp only [Checker.visits?, Option.bind_eq_bind, Option.map_bind]
  congr 1
  funext v
  rw [Function.comp_apply]
  cases c.visits? fragments v.after with
  | none => rfl
  | some r => exact congrArg some (p.outsideOf_cons c.name v r)

theorem runSync_cons_outside (p : Pipeline) (c : Checker σ) (f : Fragment)
    (fragments : List Fragment) (s : σ) :
    (p.runSync c (f :: fragments) s).map outside =
      (c.visit? f s).bind fun v =>
        ((p.runSync c fragments v.after).map outside).map (p.addVisit c.name v) := by
  cases ha : f.asked? with
  | none =>
    simp only [runSync, f.notEmpty_of_blank p.family ha, c.visit?_blank ha,
      Option.bind_eq_bind, Option.bind_some, Visit.after, Option.map_none, Option.getD_none]
    cases p.runSync c fragments s with
    | none => rfl
    | some r => simp [outside, addVisit, Visit.finding?, ha]
  | some code =>
    obtain ⟨hok, hcode⟩ := f.notEmpty_of_asked p.family ha
    simp only [runSync, hok, hcode, c.visit?_asked ha, Option.bind_eq_bind]
    cases c.check code s with
    | none => rfl
    | some answer =>
      simp only [Option.bind_some, Option.map_some, Visit.after, Option.getD_some]
      cases p.runSync c fragments answer.state with
      | none => rfl
      | some r => simp [outside, addVisit, Visit.finding?, ha]

theorem runSync_outside (p : Pipeline) (c : Checker σ) (fragments : List Fragment) (s : σ) :
    (p.runSync c fragments s).map outside =
      (c.visits? fragments s).map (p.outsideOf c.name) := by
  induction fragments generalizing s with
  | nil => rfl
  | cons f fragments ih =>
    rw [runSync_cons_outside, visits?_cons_outside]
    simp only [ih]

/-- A run over fragments goes on from where a run over the first of them ended. -/
theorem runSync_append {p : Pipeline} {c : Checker σ} {fragments more : List Fragment} {s t u : σ}
    {events others : List Event}
    (hfirst : p.runSync c fragments s = some (events, u))
    (hmore : p.runSync c more u = some (others, t)) :
    p.runSync c (fragments ++ more) s = some (events ++ others, t) := by
  induction fragments generalizing s events with
  | nil =>
    obtain ⟨rfl, rfl⟩ := by simpa [runSync] using hfirst
    exact hmore
  | cons f fragments ih =>
    rw [runSync] at hfirst
    rw [List.cons_append, runSync]
    cases hchecked : Precheck.notEmpty p.family f with
    | error finding =>
      simp only [hchecked, Option.bind_eq_bind, Option.bind_eq_some_iff, Option.pure_def,
        Option.some.injEq, Prod.mk.injEq] at hfirst
      obtain ⟨⟨rest, v⟩, hrest, rfl, rfl⟩ := hfirst
      simp [ih hrest]
    | ok trimmed =>
      simp only [hchecked, Option.bind_eq_bind, Option.bind_eq_some_iff, Option.pure_def,
        Option.some.injEq, Prod.mk.injEq] at hfirst
      obtain ⟨answer, hcheck, ⟨rest, v⟩, hrest, rfl, rfl⟩ := hfirst
      simp [hcheck, ih hrest]

/-- The verdicts of visits as they arrive at slots that are counted from a number. -/
def arrivals : Nat → List (Visit σ) → List Arrival
  | _, [] => []
  | n, v :: vs => match v.answer with
    | none => arrivals (n + 1) vs
    | some answer => ⟨n, answer.verdict, answer.notices⟩ :: arrivals (n + 1) vs

theorem slot_of_blank (p : Pipeline) {f : Fragment} (h : f.asked? = none) :
    p.slot f = .settled (some (Template.emptyContent p.family f.start)) := by
  simp [slot, f.notEmpty_of_blank p.family h]

theorem slot_of_asked (p : Pipeline) {f : Fragment} {code : Text} (h : f.asked? = some code) :
    p.slot f = .waiting f.trimmed := by
  simp [slot, (f.notEmpty_of_asked p.family h).1]

theorem code?_slot (p : Pipeline) (f : Fragment) : (p.slot f).code? = f.asked? := by
  cases ha : f.asked? with
  | none => rw [p.slot_of_blank ha]; rfl
  | some code =>
    rw [p.slot_of_asked ha, Slot.code?, (f.notEmpty_of_asked p.family ha).2]

/-- A parser that serves slots in their order answers as it does on visits. -/
theorem serve_eq (p : Pipeline) (c : Checker σ) (n : Nat) (fragments : List Fragment) (s : σ) :
    serve c n (fragments.map p.slot) s =
      (c.visits? fragments s).map fun r => (arrivals n r.1, r.2) := by
  induction fragments generalizing n s with
  | nil => rfl
  | cons f fragments ih =>
    rw [List.map_cons]
    cases ha : f.asked? with
    | none =>
      simp only [p.slot_of_blank ha, serve, ih, Checker.visits?, c.visit?_blank ha,
        Option.bind_eq_bind, Option.bind_some, Visit.after, Option.map_none, Option.getD_none]
      cases c.visits? fragments s <;> rfl
    | some code =>
      have hcode := (f.notEmpty_of_asked p.family ha).2
      simp only [p.slot_of_asked ha, serve, hcode, ih, Checker.visits?, c.visit?_asked ha,
        Option.bind_eq_bind]
      cases c.check code s with
      | none => rfl
      | some answer =>
        simp only [Option.bind_some, Option.map_some, Visit.after, Option.getD_some]
        cases c.visits? fragments answer.state <;> rfl

/-- The arrivals of visits settle their slots one after another; the induction leaves those
that are settled already in front. -/
theorem arriveAll_arrivals (p : Pipeline) (parser : Text) (before : List Slot)
    (vs : List (Visit σ)) (h : ∀ v ∈ vs, v.IsProper) :
    p.arriveAll parser (before ++ vs.map fun v => p.slot v.fragment)
      (arrivals before.length vs) =
      (before ++ vs.map fun v => .settled (v.finding? p parser),
        vs.flatMap (Visit.noted p parser)) := by
  induction vs generalizing before with
  | nil => simp [arrivals, arriveAll]
  | cons v vs ih =>
    obtain ⟨hv, hvs⟩ := List.forall_mem_cons.mp h
    have hrest := ih (before ++ [.settled (v.finding? p parser)]) hvs
    simp only [List.length_append, List.length_singleton, List.append_assoc,
      List.singleton_append] at hrest
    cases hans : v.answer with
    | none =>
      have hblank : v.fragment.asked? = none := by simpa [Visit.IsProper, hans] using hv
      simpa [arrivals, hans, p.slot_of_blank hblank, Visit.finding?, Visit.noted] using hrest
    | some answer =>
      obtain ⟨code, ha⟩ : ∃ code, v.fragment.asked? = some code := by
        rw [Visit.IsProper, hans] at hv
        exact Option.isSome_iff_exists.mp hv.symm
      simp only [Visit.finding?, hans] at hrest
      simp [arrivals, hans, arriveAll, arrive, p.slot_of_asked ha, Visit.finding?, Visit.noted,
        hrest]

theorem findings?_settled (found : List (Option Finding)) :
    findings? (found.map .settled) = some (found.filterMap id) := by
  induction found with
  | nil => rfl
  | cons f found ih => cases f <;> simp [findings?, ih]

/-- What becomes of the slots of a run whose visits are known. -/
theorem arriveAll_visits (p : Pipeline) {c : Checker σ} {fragments : List Fragment} {s t : σ}
    {vs : List (Visit σ)} (h : c.visits? fragments s = some (vs, t)) :
    p.arriveAll c.name (fragments.map p.slot) (arrivals 0 vs) =
      (vs.map fun v => .settled (v.finding? p c.name), vs.flatMap (Visit.noted p c.name)) := by
  obtain ⟨hfrag, hproper⟩ := Checker.visits?_spec h
  have hslots : vs.map (fun v => p.slot v.fragment) = fragments.map p.slot := by
    rw [← hfrag, List.map_map]
    rfl
  rw [← hslots]
  exact arriveAll_arrivals p c.name [] vs hproper

/-- A run with all fragments under way, served in their order, and a run with one fragment at
a time look the same from outside. -/
theorem runFull_outside (p : Pipeline) (c : Checker σ) (fragments : List Fragment) (s : σ) :
    (p.runFull c fragments s).map outside =
      (c.visits? fragments s).map (p.outsideOf c.name) := by
  rw [runFull, serve_eq]
  cases hvs : c.visits? fragments s with
  | none => rfl
  | some r =>
    obtain ⟨vs, t⟩ := r
    obtain ⟨hfrag, -⟩ := Checker.visits?_spec hvs
    have hfound : findings? (p.arriveAll c.name (fragments.map p.slot) (arrivals 0 vs)).1 =
        some (vs.filterMap (Visit.finding? p c.name)) := by
      have := findings?_settled (vs.map (Visit.finding? p c.name))
      rw [List.map_map, List.filterMap_map] at this
      rw [arriveAll_visits p hvs]
      exact this
    have hcodes : (fragments.map p.slot).filterMap Slot.code? =
        vs.filterMap (·.fragment.asked?) := by
      rw [← hfrag, List.map_map, List.filterMap_map]
      congr 1
      funext v
      exact p.code?_slot v.fragment
    simp [gather, hfound, hcodes, outside, outsideOf]

/-- What is noted in a run with all fragments under way is what is noted at its visits. -/
theorem notice_mem_runFull {p : Pipeline} {c : Checker σ} {fragments : List Fragment} {s t : σ}
    {events : List Event} (h : p.runFull c fragments s = some (events, t)) :
    ∃ vs, c.visits? fragments s = some (vs, t) ∧
      ∀ n, .notice n ∈ events ↔ ∃ v ∈ vs, n ∈ v.noted p c.name := by
  rw [runFull, serve_eq] at h
  cases hvs : c.visits? fragments s with
  | none => simp [hvs] at h
  | some r =>
    obtain ⟨vs, u⟩ := r
    simp only [hvs, Option.map_some, Option.bind_eq_bind, Option.bind_some, gather,
      arriveAll_visits p hvs, Option.bind_eq_some_iff, Option.map_eq_some_iff, Option.pure_def,
      Option.some.injEq, Prod.mk.injEq] at h
    obtain ⟨_, ⟨found, -, rfl⟩, rfl, rfl⟩ := h
    exact ⟨vs, rfl, fun n => by simp⟩

/-- With a parser that answers whatever it is asked, every run comes to an end. -/
theorem run_isSome (p : Pipeline) {c : Checker σ} (h : c.Total) (mode : Mode)
    (fragments : List Fragment) (s : σ) : (p.run c mode fragments s).isSome := by
  obtain ⟨vs, t, hvs⟩ := h.visits? fragments s
  have hfull := congrArg Option.isSome (p.runFull_outside c fragments s)
  have hsync := congrArg Option.isSome (p.runSync_outside c fragments s)
  rw [Option.isSome_map, hvs] at hfull hsync
  rw [run]
  split
  · rfl
  · split
    · exact hfull
    · exact hsync

/-- A run in full mode, read off its visits. -/
theorem run_outside (p : Pipeline) (c : Checker σ) {mode : Mode} (hmode : mode = .full)
    (fragments : List Fragment) (s : σ) :
    (p.run c mode fragments s).map outside =
      (c.visits? fragments s).map (p.outsideOf c.name) := by
  subst hmode
  cases hc : c.concurrent with
  | true => simpa [run, hc] using p.runFull_outside c fragments s
  | false => simpa [run, hc] using p.runSync_outside c fragments s

end Pipeline

end FragmentLint
