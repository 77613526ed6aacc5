import FragmentLint.Proofs.Assembly

/-!
# Configurations that make no sense

A configuration is read to its end before any document is. What is wrong with it is said here
without reference to the reading: the first rule whose value is neither nothing, a truth value nor a
mapping, or is a mapping in which an option has no truth value. Such a fault is all that comes of
linting, at every site and for all documents. Without one, the rules that are not turned off run
with the options of their values.
-/
namespace FragmentLint

/-- All that is in a list has a property, or there is a first one that does not. -/
theorem forall_or_first {α : Type} (p : α → Prop) (l : List α) :
    (∀ a ∈ l, p a) ∨
      ∃ before a behind, l = before ++ a :: behind ∧ (∀ b ∈ before, p b) ∧ ¬ p a := by
  induction l with
  | nil => exact .inl (by simp)
  | cons a l ih =>
    by_cases ha : p a
    · obtain hall | ⟨before, b, behind, rfl, hbefore, hb⟩ := ih
      · exact .inl (List.forall_mem_cons.mpr ⟨ha, hall⟩)
      · exact .inr ⟨a :: before, b, behind, rfl, List.forall_mem_cons.mpr ⟨ha, hbefore⟩, hb⟩
    · exact .inr ⟨[], a, l, rfl, by simp, ha⟩

namespace Options

/-- The names of options. The second option has two. -/
def names : List Text :=
  ["basic", "displayMode", "display_mode", "strict"]

/-- All members of a mapping that are options have truth values. -/
def Sound (members : Json.Members) : Prop :=
  ∀ m ∈ members, m.1 ∈ names → ∃ b, m.2 = .bool b

/-- The truth value of the last member that has one of some names. -/
def last (spellings : List Text) (members : Json.Members) : Bool :=
  match (members.filter (spellings.contains ·.1)).getLast? with
  | some (_, .bool b) => b
  | _ => false

/-- The options that the members of a mapping give. -/
def given (members : Json.Members) : Options where
  basic := last ["basic"] members
  displayMode := last ["displayMode", "display_mode"] members
  strict := last ["strict"] members

theorem last_concat (spellings : List Text) (members : Json.Members) (m : Text × Json) :
    last spellings (members ++ [m]) =
      if m.1 ∈ spellings then (match m.2 with | .bool b => b | _ => false)
      else last spellings members := by
  by_cases h : m.1 ∈ spellings
  · obtain ⟨name, v⟩ := m
    cases v <;> simp_all [last, List.filter_append]
  · simp [last, List.filter_append, h]

theorem setter?_eq_none_iff {name : Text} : setter? name = none ↔ name ∉ names := by
  unfold setter? names
  simp only [List.mem_cons, List.not_mem_nil, or_false, not_or]
  split_ifs with hbasic hmode hstrict
  · simp [hbasic]
  · obtain rfl | rfl := hmode <;> simp
  · simp [hstrict]
  · have hmode := not_or.mp hmode
    exact iff_of_true rfl ⟨hbasic, hmode.1, hmode.2, hstrict⟩

theorem ofMembers_append (members : Json.Members) (name : Text) (v : Json)
    (more : Json.Members) :
    ofMembers (members ++ (name, v) :: more) =
      (ofMembers members).bind fun o => (o.set name v).bind fun o =>
        more.foldlM (fun o (name, v) => o.set name v) o :=
  List.foldlM_append

theorem set_other (members : Json.Members) {name : Text} (h : name ∉ names) (v : Json) :
    (given members).set name v = .ok (given (members ++ [(name, v)])) := by
  have hlast : ∀ spellings : List Text, (∀ s ∈ spellings, s ∈ names) →
      last spellings (members ++ [(name, v)]) = last spellings members := by
    intro spellings hspellings
    rw [last_concat, if_neg fun hmem => h (hspellings name hmem)]
  have hgiven : given (members ++ [(name, v)]) = given members := by
    unfold given
    rw [hlast _ (by decide), hlast _ (by decide), hlast _ (by decide)]
  unfold set
  rw [setter?_eq_none_iff.mpr h, hgiven]

/-- A member with a truth value sets the option that it names. -/
theorem set_bool (members : Json.Members) (name : Text) (b : Bool) :
    (given members).set name (.bool b) = .ok (given (members ++ [(name, .bool b)])) := by
  have hset : ∀ put, setter? name = some put →
      (given members).set name (.bool b) = .ok (put (given members) b) := by
    intro put hput
    unfold set
    rw [hput]
  by_cases hname : name ∈ names
  · unfold given at hset ⊢
    simp only [last_concat]
    simp only [names, List.mem_cons, List.not_mem_nil, or_false] at hname
    obtain rfl | rfl | rfl | rfl := hname <;> exact hset _ rfl
  · exact set_other members hname _

/-- The options of a sound mapping are those that it gives. -/
theorem ofMembers_of_sound {members : Json.Members} (h : Sound members) :
    ofMembers members = .ok (given members) := by
  induction members using List.reverseRecOn with
  | nil => rfl
  | append_singleton members m ih =>
    obtain ⟨name, v⟩ := m
    have hbefore : Sound members := fun m hm => h m (List.mem_append_left _ hm)
    have hset : (given members).set name v = .ok (given (members ++ [(name, v)])) := by
      by_cases hname : name ∈ names
      · obtain ⟨b, hb⟩ : ∃ b, v = .bool b := h (name, v) (by simp) hname
        rw [hb]
        exact set_bool members name b
      · exact set_other members hname v
    rw [ofMembers_append, ih hbefore, Except.bind, hset]
    rfl

example : ofMembers [("displayMode", .bool true), ("basic", .bool true),
    ("display_mode", .bool false)] = .ok { basic := true } :=
  rfl

/-- The first option of a mapping without a truth value is the fault. -/
theorem ofMembers_of_fault {before : Json.Members} (hbefore : Sound before) {name : Text}
    (hname : name ∈ names) {v : Json} (hv : ∀ b, v ≠ .bool b) (behind : Json.Members) :
    ofMembers (before ++ (name, v) :: behind) = .error (.option name v) := by
  obtain ⟨put, hput⟩ : ∃ put, setter? name = some put :=
    Option.ne_none_iff_exists'.mp (mt setter?_eq_none_iff.mp (not_not_intro hname))
  have hset : (given before).set name v = .error (.option name v) := by
    unfold set
    rw [hput]
    cases v with
    | bool b => exact absurd rfl (hv b)
    | _ => rfl
  rw [ofMembers_append, ofMembers_of_sound hbefore, Except.bind, hset]
  rfl

/-- A mapping is sound, or has a first option without a truth value. -/
theorem sound_or_fault (members : Json.Members) : Sound members ∨ ∃ before name v behind,
    members = before ++ (name, v) :: behind ∧ Sound before ∧ name ∈ names ∧ ∀ b, v ≠ .bool b := by
  refine (forall_or_first _ members).imp_right ?_
  rintro ⟨before, ⟨name, v⟩, behind, rfl, hbefore, hm⟩
  obtain ⟨hname, hv⟩ := Classical.not_imp.mp hm
  exact ⟨before, name, v, behind, rfl, hbefore, hname, not_exists.mp hv⟩

end Options

namespace Rule

/-- What a configuration holds under some names: the value of the first one that it has, and nothing
if it has none. -/
inductive Holds (config : Json.Members) : List Text → Json → Prop where
  | nothing : Holds config [] .null
  | found {name : Text} {others : List Text} {v : Json} (hname : config.get? name = some v) :
      Holds config (name :: others) v
  | absent {name : Text} {others : List Text} {v : Json} (hname : config.get? name = none)
      (hothers : Holds config others v) : Holds config (name :: others) v

/-- What is wrong with the value that a configuration holds for a rule. -/
inductive Wrong (rule : Text) : Json → ConfigFault → Prop where
  /-- It is neither nothing nor a truth value nor a mapping. -/
  | value {v : Json} (hnull : v ≠ .null) (hbool : ∀ b, v ≠ .bool b) (hobj : ∀ ms, v ≠ .obj ms) :
      Wrong rule v (.options rule v)
  /-- It is a mapping whose first option without a truth value is this one. -/
  | option {before behind : Json.Members} {name : Text} {v : Json}
      (hbefore : Options.Sound before) (hname : name ∈ Options.names) (hv : ∀ b, v ≠ .bool b) :
      Wrong rule (.obj (before ++ (name, v) :: behind)) (.option name v)

/-- The options that a value gives to a rule, unless it turns the rule off. -/
def optionsFor : Json → Option Options
  | .bool false => none
  | .obj members => some (.given members)
  | _ => some {}

theorem holds_iff {config : Json.Members} {names : List Text} {v : Json} :
    Holds config names v ↔ (names.findSome? config.get?).getD .null = v := by
  induction names with
  | nil =>
    constructor
    · rintro ⟨⟩
      rfl
    · rintro rfl
      exact .nothing
  | cons name names ih =>
    cases hname : config.get? name with
    | some found =>
      rw [List.findSome?_cons_of_isSome (by simp [hname]), hname, Option.getD_some]
      constructor
      · rintro (_ | hfound | ⟨habsent, -⟩)
        · exact Option.some.inj (hname.symm.trans hfound)
        · rw [hname] at habsent
          cases habsent
      · rintro rfl
        exact .found hname
    | none =>
      rw [List.findSome?_cons_of_isNone (by simp [hname]), ← ih]
      constructor
      · rintro (_ | hfound | ⟨-, hothers⟩)
        · rw [hname] at hfound
          cases hfound
        · exact hothers
      · exact .absent hname

theorem holds_setting (r : Rule) (config : Json.Members) :
    Holds config r.names.toList (r.setting config) :=
  holds_iff.mpr rfl

/-- What is wrong with the value for a rule is the fault. -/
theorem options?_of_wrong {r : Rule} {config : Json.Members} {fault : ConfigFault}
    (h : Wrong r.name (r.setting config) fault) : r.options? config = .error fault := by
  unfold options?
  generalize r.setting config = v at h
  cases h with
  | value hnull hbool hobj =>
    cases v with
    | null => exact absurd rfl hnull
    | bool b => exact absurd rfl (hbool b)
    | obj members => exact absurd rfl (hobj members)
    | num x | str t | arr items => rfl
  | @option before behind name v hbefore hname hv =>
    show (Options.ofMembers (before ++ (name, v) :: behind)).map some = _
    rw [Options.ofMembers_of_fault hbefore hname hv]
    rfl

/-- A value with which nothing is wrong gives the options. -/
theorem options?_of_right {r : Rule} {config : Json.Members}
    (h : ∀ fault, ¬ Wrong r.name (r.setting config) fault) :
    r.options? config = .ok (optionsFor (r.setting config)) := by
  unfold options?
  generalize r.setting config = v at h ⊢
  cases v with
  | null => rfl
  | bool b => cases b <;> rfl
  | num x | str t | arr items =>
    exact absurd (.value (by simp) (by simp) (by simp)) (h _)
  | obj members =>
    obtain hsound | ⟨before, name, v, behind, rfl, hbefore, hname, hv⟩ :=
      Options.sound_or_fault members
    · show (Options.ofMembers members).map some = _
      rw [Options.ofMembers_of_sound hsound]
      rfl
    · exact absurd (.option hbefore hname hv) (h _)

/-- The fault is what is wrong with the value for one of some rules, and nothing is wrong with the
values for the rules in front of it. -/
def FirstFault (config : Json.Members) (rules : List Rule) (fault : ConfigFault) : Prop :=
  ∃ before r behind, rules = before ++ r :: behind ∧
    (∀ q ∈ before, ∀ v, Holds config q.names.toList v → ∀ other, ¬ Wrong q.name v other) ∧
    ∃ v, Holds config r.names.toList v ∧ Wrong r.name v fault

/-- The rules that a configuration lets run, with the options of their values. -/
def allowed (config : Json.Members) (rules : List Rule) : List (Rule × Options) :=
  rules.filterMap fun r => (optionsFor (r.setting config)).map fun o => (r, o)

section Enabled

variable {config : Json.Members}

theorem enabled_cons (config : Json.Members) (r : Rule) (rules : List Rule) :
    enabled config (r :: rules) = (r.options? config).bind fun options =>
      (enabled config rules).map fun others => (options.map fun o => (r, o)).toList ++ others := by
  rw [enabled]
  cases r.options? config with
  | error fault => rfl
  | ok options => cases enabled config rules <;> rfl

theorem allowed_cons (config : Json.Members) (r : Rule) (rules : List Rule) :
    allowed config (r :: rules) =
      ((optionsFor (r.setting config)).map fun o => (r, o)).toList ++ allowed config rules := by
  unfold allowed
  cases h : optionsFor (r.setting config) <;> simp [h]

theorem mem_allowed_iff {rules : List Rule} {r : Rule} {o : Options} :
    (r, o) ∈ allowed config rules ↔ r ∈ rules ∧ optionsFor (r.setting config) = some o := by
  simp [allowed]

/-- A rule is left out exactly if its value is false. -/
theorem not_mem_allowed_iff {rules : List Rule} {r : Rule} (hr : r ∈ rules) :
    (∀ o, (r, o) ∉ allowed config rules) ↔ Holds config r.names.toList (.bool false) := by
  have hoff : ∀ v, (∀ o, optionsFor v ≠ some o) ↔ v = .bool false := by
    intro v
    cases v with
    | bool b => cases b <;> simp [optionsFor]
    | _ => simp [optionsFor]
  simp only [mem_allowed_iff, hr, true_and, holds_iff]
  exact hoff _

/-- Rules with whose values nothing is wrong, in front of others. -/
theorem enabled_append {before : List Rule}
    (h : ∀ q ∈ before, ∀ fault, ¬ Wrong q.name (q.setting config) fault) (rules : List Rule) :
    enabled config (before ++ rules) = (enabled config rules).map (allowed config before ++ ·) := by
  induction before with
  | nil =>
    rw [List.nil_append]
    cases enabled config rules <;> rfl
  | cons q before ih =>
    obtain ⟨hq, hbefore⟩ := List.forall_mem_cons.mp h
    rw [List.cons_append, enabled_cons, options?_of_right hq, ih hbefore, allowed_cons]
    cases enabled config rules with
    | error fault => rfl
    | ok others => simp [Except.bind, Except.map]

theorem enabled_of_firstFault {rules : List Rule} {fault : ConfigFault}
    (h : FirstFault config rules fault) : enabled config rules = .error fault := by
  obtain ⟨before, r, behind, rfl, hbefore, v, hv, hwrong⟩ := h
  obtain rfl := holds_iff.mp hv
  rw [enabled_append fun q hq => hbefore q hq _ (holds_setting q config), enabled_cons,
    options?_of_wrong hwrong]
  rfl

theorem enabled_of_right {rules : List Rule} (h : ∀ fault, ¬ FirstFault config rules fault) :
    enabled config rules = .ok (allowed config rules) := by
  obtain hright | ⟨before, r, behind, rfl, hbefore, hr⟩ :=
    forall_or_first (fun r : Rule => ∀ fault, ¬ Wrong r.name (r.setting config) fault) rules
  · have henabled := enabled_append hright []
    rw [List.append_nil] at henabled
    rw [henabled]
    simp [enabled, Except.map]
  · obtain ⟨fault, hwrong⟩ := not_forall_not.mp hr
    refine absurd ⟨before, r, behind, rfl, ?_, _, holds_setting r config, hwrong⟩ (h fault)
    intro q hq v hv
    obtain rfl := holds_iff.mp hv
    exact hbefore q hq

end Enabled

end Rule

namespace Lint

/-- What comes of linting with rules whose options are known. -/
def linted [Host] (site : Site) (rules : List (Rule × Options)) (documents : List (Text × Text)) :
    Option Outcome := do
  let (results, noted, s) ← runDocuments site rules documents { world := {} }
  let (closed, more, s) ← closeRules site rules s
  return ⟨closed.map fun () => results, noted ++ more, s.world⟩

/-- Documents are never linted with a fault of the configuration for a result. -/
theorem results_linted_ne [Host] {site : Site} {rules : List (Rule × Options)}
    {documents : List (Text × Text)} {outcome : Outcome}
    (h : linted site rules documents = some outcome) (fault : ConfigFault) :
    outcome.results ≠ .error (.config fault) := by
  simp only [linted, Option.bind_eq_bind, Option.bind_eq_some_iff, Option.pure_def,
    Option.some.injEq] at h
  obtain ⟨⟨results, noted, s⟩, hrun, ⟨closed, more, t⟩, hclose, rfl⟩ := h
  obtain ⟨closed', noted', t', hclose', hfault⟩ := closeRules_of_runDocuments hrun
  obtain ⟨rfl, -, -⟩ : closed = closed' ∧ _ := by simpa [hclose] using hclose'
  cases closed with
  | ok u => simp [Except.map]
  | error found =>
    obtain ⟨-, -, garbled, rfl, -⟩ := (hfault found).mp rfl
    simp [Except.map]

/-- Linting comes to a fault of the configuration exactly if that is the first fault in it, and then
to nothing else, whatever the site and the documents are. Otherwise the documents are linted by the
rules that are not turned off, each with the options of its value. -/
theorem config_read_first [Host] (site : Site) (rules : List Rule) (config : Json.Members)
    (documents : List (Text × Text)) :
    (∀ fault, Rule.FirstFault config rules fault ↔ ∃ outcome,
      lint site rules config documents = some outcome ∧
        outcome.results = .error (.config fault)) ∧
    (∀ fault, Rule.FirstFault config rules fault ↔
      lint site rules config documents = some ⟨.error (.config fault), [], {}⟩) ∧
    ((∀ fault, ¬ Rule.FirstFault config rules fault) →
      lint site rules config documents = linted site (Rule.allowed config rules) documents) ∧
    ∀ r ∈ rules, (∀ o, (r, o) ∉ Rule.allowed config rules) ↔
      Rule.Holds config r.names.toList (.bool false) := by
  have hfaulty : ∀ fault, Rule.FirstFault config rules fault →
      lint site rules config documents = some ⟨.error (.config fault), [], {}⟩ := by
    intro fault h
    rw [lint, Rule.enabled_of_firstFault h]
  have hright : (∀ fault, ¬ Rule.FirstFault config rules fault) →
      lint site rules config documents = linted site (Rule.allowed config rules) documents := by
    intro h
    rw [lint, Rule.enabled_of_right h]
    rfl
  have honly : ∀ outcome fault, lint site rules config documents = some outcome →
      outcome.results = .error (.config fault) → Rule.FirstFault config rules fault := by
    intro outcome fault hlint hresults
    by_cases hany : ∃ found, Rule.FirstFault config rules found
    · obtain ⟨found, hfound⟩ := hany
      obtain rfl := Option.some.inj ((hfaulty found hfound).symm.trans hlint)
      obtain rfl := Fault.config.inj (Except.error.inj hresults)
      exact hfound
    · rw [hright (not_exists.mp hany)] at hlint
      exact absurd hresults (results_linted_ne hlint fault)
  refine ⟨fun fault => ⟨?_, ?_⟩, fun fault => ⟨hfaulty fault, fun h => honly _ _ h rfl⟩, hright,
    fun r hr => Rule.not_mem_allowed_iff hr⟩
  · intro h
    exact ⟨_, hfaulty fault h, rfl⟩
  · rintro ⟨outcome, hlint, hresults⟩
    exact honly outcome fault hlint hresults

end Lint

end FragmentLint
