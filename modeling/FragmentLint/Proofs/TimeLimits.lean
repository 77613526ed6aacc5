import FragmentLint.Bridge.Settings
import Mathlib.Algebra.Order.Field.Power
import Mathlib.Data.List.TakeWhile
import Mathlib.Data.Rat.Cast.Order

/-!
# Limits of time that an environment asks for

A limit of time is asked for as the text of a number. Zero asks for none, and a number below zero
is turned down, as is a text that reads as no number at all. What is left should be a limit above
zero. It is, but for one value: the text of a number may be the word for no number, and that value
is neither zero nor below it.
-/
namespace FragmentLint

open Text

namespace Binary64

/-- The exact value of a finite number. -/
def exact (negative : Bool) (m : Nat) (q : Int) : ℚ :=
  (if negative then -(m : ℚ) else m) * 2 ^ q

/-- A number is above zero. -/
def Positive : Binary64 → Prop
  | .finite negative m q => 0 < exact negative m q
  | .infinite negative => negative = false
  | .nan => False

/-- A number is below zero. -/
def Negative : Binary64 → Prop
  | .finite negative m q => exact negative m q < 0
  | .infinite negative => negative = true
  | .nan => False

section Signs

variable {negative : Bool} {m : Nat} {q : Int}

theorem twoPow_pos (q : Int) : (0 : ℚ) < 2 ^ q :=
  zpow_pos two_pos q

theorem exact_pos_iff : 0 < exact negative m q ↔ negative = false ∧ m ≠ 0 := by
  rw [exact, mul_pos_iff_of_pos_right (twoPow_pos q)]
  cases negative with
  | false => simp [Nat.pos_iff_ne_zero]
  | true => simp

theorem exact_neg_iff : exact negative m q < 0 ↔ negative = true ∧ m ≠ 0 := by
  rw [exact, ← neg_pos, ← neg_mul, mul_pos_iff_of_pos_right (twoPow_pos q)]
  cases negative with
  | false => simp
  | true => simp [Nat.pos_iff_ne_zero]

end Signs

/-- What is not at most zero is above it, or is no number. -/
theorem isNonpositive_eq_false_iff {x : Binary64} :
    x.isNonpositive = false ↔ x.Positive ∨ x = .nan := by
  cases x with
  | finite negative m q => simp [isNonpositive, Positive, exact_pos_iff]
  | infinite negative => simp [isNonpositive, Positive]
  | nan => simp [isNonpositive]

/-- What is at most zero, and is not zero, is below it. -/
theorem negative_iff {x : Binary64} :
    x.Negative ↔ x.isNonpositive = true ∧ x.isZero = false := by
  cases x with
  | finite negative m q =>
    simp only [isNonpositive, isZero, Negative, exact_neg_iff, Bool.or_eq_true, beq_iff_eq,
      beq_eq_false_iff_ne]
    exact ⟨fun h => ⟨.inl h.1, h.2⟩, fun h => ⟨h.1.resolve_right h.2, h.2⟩⟩
  | infinite negative => simp [isNonpositive, isZero, Negative]
  | nan => simp [isNonpositive, Negative]

def signs : List Text := ["", "+", "-"]

/-- A text spells no number: between blanks stands the word for it, in letters of any case, with
a sign or without. -/
def SpellsNan (t : Text) : Prop :=
  ∃ front sign word behind, t = front ++ (sign ++ word) ++ behind ∧
    (∀ c ∈ front, isMargin c = true) ∧ (∀ c ∈ behind, isMargin c = true) ∧
    sign ∈ signs ∧ word.map Char.toLower = "nan"

/-- The characters of the signs and of the word for no number. -/
def nanLetters : Text := "+-nNaA"

theorem nanLetters_plain {c : Char} (h : c ∈ nanLetters) :
    isMargin c = false ∧ digitValue? c = none ∧ c.isDigit = false ∧ c ≠ '_' := by
  have hall : (nanLetters.all fun c =>
      !isMargin c && ((digitValue? c).isNone && (!c.isDigit && c != '_'))) = true := by
    decide
  simpa using List.all_eq_true.mp hall c h

theorem mem_nanLetters_of_toLower {c : Char} (h : c.toLower ∈ ("nan" : Text)) :
    c ∈ nanLetters := by
  by_cases hc : c.toNat < 0x80
  · have hall : ∀ n < 0x80, (Char.ofNat n).toLower ∈ ("nan" : Text) →
        Char.ofNat n ∈ nanLetters := by
      decide
    have hbelow := hall c.toNat hc
    rw [Char.ofNat_toNat] at hbelow
    exact hbelow h
  · have hcapital : ¬ c.val ≤ 'Z'.val := by
      have hlast : 'Z'.val.toNat = 90 := by decide
      have hpoint : c.val.toNat = c.toNat := rfl
      rw [UInt32.le_iff_toNat_le]
      omega
    have hsame : c.toLower = c := dif_neg fun hcapitals => hcapital hcapitals.2
    have hsmall : (("nan" : Text).all fun d => d ∈ nanLetters) = true := by decide
    rw [hsame] at h
    simpa using List.all_eq_true.mp hsmall c h

theorem mem_nanLetters_of_spelling {sign word : Text} (hsign : sign ∈ signs)
    (hword : word.map Char.toLower = "nan") : ∀ c ∈ sign ++ word, c ∈ nanLetters := by
  intro c hc
  obtain hc | hc := List.mem_append.mp hc
  · have hall : (signs.all fun sign => sign.all fun c => c ∈ nanLetters) = true := by decide
    simpa using List.all_eq_true.mp (List.all_eq_true.mp hall sign hsign) c hc
  · exact mem_nanLetters_of_toLower (hword ▸ List.mem_map_of_mem hc)

theorem exists_sign (t : Text) : ∃ sign ∈ signs, t = sign ++ (takeSign t).2 := by
  unfold takeSign
  split
  · exact ⟨"-", by decide, rfl⟩
  · exact ⟨"+", by decide, rfl⟩
  · exact ⟨"", by decide, rfl⟩

theorem takeSign_spelling {sign word : Text} (hsign : sign ∈ signs)
    (hword : word.map Char.toLower = "nan") : (takeSign (sign ++ word)).2 = word := by
  simp only [signs, List.mem_cons, List.not_mem_nil, or_false] at hsign
  obtain rfl | rfl | rfl := hsign
  · show (takeSign word).2 = word
    unfold takeSign
    split
    · exact absurd (List.cons_eq_cons.mp hword).1 (by decide)
    · exact absurd (List.cons_eq_cons.mp hword).1 (by decide)
    · rfl
  · rfl
  · rfl

theorem withoutUnderscores?_eq_self {t : Text} (h : ∀ c ∈ t, c ≠ '_') (before : Option Char) :
    withoutUnderscores? before t = some t := by
  induction t generalizing before with
  | nil => rfl
  | cons c t ih =>
    obtain ⟨hc, ht⟩ := List.forall_mem_cons.mp h
    rw [withoutUnderscores?, if_neg hc, ih ht]
    rfl

/-- Without digits there is no place for an underscore. -/
theorem eq_of_withoutUnderscores? {before : Option Char} {t w : Text}
    (hbefore : before.any Char.isDigit = false) (hw : ∀ c ∈ w, c.isDigit = false)
    (h : withoutUnderscores? before t = some w) : t = w := by
  induction t generalizing before w with
  | nil => exact Option.some.inj h
  | cons c t ih =>
    rw [withoutUnderscores?] at h
    split at h
    · rw [hbefore, Bool.false_and] at h
      cases h
    · obtain ⟨u, hu, rfl⟩ := Option.map_eq_some_iff.mp h
      obtain ⟨hc, hrest⟩ := List.forall_mem_cons.mp hw
      have hnext : (some c).any Char.isDigit = false := hc
      rw [ih hnext hrest hu]

theorem basicDigits_eq_self {t : Text} (h : ∀ c ∈ t, digitValue? c = none) : basicDigits t = t := by
  refine (List.map_congr_left fun c hc => ?_).trans (List.map_id t)
  rw [h c hc]
  rfl

theorem eq_of_basicDigits {t w : Text} (hw : ∀ c ∈ w, c.isDigit = false) (h : basicDigits t = w) :
    t = w := by
  have hdigit : ∀ v < 10, (Char.ofNat (48 + v)).isDigit = true := by decide
  refine (basicDigits_eq_self fun c hc => ?_).symm.trans h
  cases hvalue : digitValue? c with
  | none => rfl
  | some v =>
    have hmem : Char.ofNat (48 + v) ∈ w := by
      rw [← h]
      exact List.mem_map.mpr ⟨c, hc, by rw [hvalue]⟩
    have hnot := hw _ hmem
    rw [hdigit v (digitValue?_lt hvalue)] at hnot
    cases hnot

theorem exists_margins (t : Text) :
    ∃ front behind, t = front ++ withoutMargins t ++ behind ∧ (∀ c ∈ front, isMargin c = true) ∧
      ∀ c ∈ behind, isMargin c = true := by
  refine ⟨t.takeWhile isMargin, ((t.dropWhile isMargin).reverse.takeWhile isMargin).reverse, ?_,
    fun c => List.mem_takeWhile_imp,
    fun c hc => List.mem_takeWhile_imp (List.mem_reverse.mp hc)⟩
  rw [withoutMargins, List.append_assoc, ← List.reverse_append, List.takeWhile_append_dropWhile,
    List.reverse_reverse, List.takeWhile_append_dropWhile]

theorem withoutMargins_eq {front core behind : Text} (hfront : ∀ c ∈ front, isMargin c = true)
    (hcore : ∀ c ∈ core, isMargin c = false) (hbehind : ∀ c ∈ behind, isMargin c = true)
    (hne : core ≠ []) : withoutMargins (front ++ core ++ behind) = core := by
  have hkept : ∀ u v : Text, (∀ c ∈ u, isMargin c = false) → u ≠ [] →
      (u ++ v).dropWhile isMargin = u ++ v := by
    intro u v hu hne
    cases u with
    | nil => exact absurd rfl hne
    | cons c u =>
      rw [List.cons_append, List.dropWhile_cons_of_neg (by simp [hu c List.mem_cons_self])]
  have hreverse := hkept core.reverse [] (fun c hc => hcore c (List.mem_reverse.mp hc))
    (by simpa using hne)
  rw [withoutMargins, List.append_assoc, List.dropWhile_append_of_pos hfront,
    hkept core behind hcore hne, List.reverse_append,
    List.dropWhile_append_of_pos fun c hc => hbehind c (List.mem_reverse.mp hc),
    ← List.append_nil core.reverse, hreverse, List.append_nil, List.reverse_reverse]

theorem ofQuotient_ne_nan (negative : Bool) (num den : Nat) :
    ofQuotient negative num den ≠ .nan := by
  unfold ofQuotient
  dsimp only
  split_ifs <;> simp

theorem ofDecimal_ne_nan (negative : Bool) (digits : Nat) (exponent : Int) :
    ofDecimal negative digits exponent ≠ .nan := by
  unfold ofDecimal
  dsimp only
  split_ifs <;> simp [ofQuotient_ne_nan]

theorem unsigned?_ne_nan (negative : Bool) (t : Text) : unsigned? negative t ≠ some .nan := by
  intro h
  simp only [unsigned?, Option.ite_none_left_eq_some] at h
  obtain ⟨e, -, he⟩ := Option.map_eq_some_iff.mp h.2
  exact ofDecimal_ne_nan _ _ _ he

theorem ofText?_eq_nan_iff {t : Text} : ofText? t = some .nan ↔
    ∃ w, withoutUnderscores? none (basicDigits (withoutMargins t)) = some w ∧
      (takeSign w).2.map Char.toLower = "nan" := by
  simp only [ofText?, Option.bind_eq_bind, Option.bind_eq_some_iff]
  refine exists_congr fun w => and_congr_right fun _ => ?_
  split
  · rename_i hword
    refine iff_of_false (by nofun) fun hnan => ?_
    rw [hnan] at hword
    exact absurd hword (by decide)
  · split
    · rename_i hnan
      exact iff_of_true rfl hnan
    · rename_i hnan
      exact iff_of_false (unsigned?_ne_nan _ _) hnan

/-- The texts that are read as no number are those that spell it. -/
theorem ofText?_nan_iff {t : Text} : ofText? t = some .nan ↔ SpellsNan t := by
  rw [ofText?_eq_nan_iff]
  constructor
  · rintro ⟨w, hw, hword⟩
    obtain ⟨sign, hsign, hsplit⟩ := exists_sign w
    have hplain : ∀ c ∈ w, c.isDigit = false := fun c hc =>
      (nanLetters_plain (mem_nanLetters_of_spelling hsign hword c (hsplit ▸ hc))).2.2.1
    have hcore := eq_of_basicDigits hplain (eq_of_withoutUnderscores? rfl hplain hw)
    obtain ⟨front, behind, ht, hfront, hbehind⟩ := exists_margins t
    rw [hcore, hsplit] at ht
    exact ⟨front, sign, _, behind, ht, hfront, hbehind, hsign, hword⟩
  · rintro ⟨front, sign, word, behind, rfl, hfront, hbehind, hsign, hword⟩
    have hletters := fun c hc => nanLetters_plain (mem_nanLetters_of_spelling hsign hword c hc)
    have hne : sign ++ word ≠ [] := by
      intro hnil
      rw [(List.append_eq_nil_iff.mp hnil).2] at hword
      exact absurd hword (by decide)
    refine ⟨sign ++ word, ?_, by rw [takeSign_spelling hsign hword, hword]⟩
    rw [withoutMargins_eq hfront (fun c hc => (hletters c hc).1) hbehind hne,
      basicDigits_eq_self fun c hc => (hletters c hc).2.1]
    exact withoutUnderscores?_eq_self (fun c hc => (hletters c hc).2.2.2) none

example : SpellsNan "\t-NaN " :=
  ofText?_nan_iff.mp (by decide)

end Binary64

/-- A number is above zero. -/
def Number.Positive : Number → Prop
  | .int n => 0 < n
  | .real x => x.Positive

theorem Number.isNonpositive_eq_false_iff {x : Number} :
    x.isNonpositive = false ↔ x.Positive ∨ x = .real .nan := by
  cases x with
  | int n => simp [isNonpositive, Positive]
  | real x => simp [isNonpositive, Positive, Binary64.isNonpositive_eq_false_iff]

namespace Settings

/-- The limit of time that an environment asks for, before it is looked at. -/
def asked (env : Environment) : Except ConfigFault (Option Number) :=
  match env.get? "FENCELINT_NODE_TIMEOUT" with
  | none => .ok (some defaultTimeout)
  | some t => timeoutOf t

def program (env : Environment) : Text :=
  (env.nonempty? "FENCELINT_NODE").getD defaultExecutable

theorem ofEnv_eq (env : Environment) :
    ofEnv env =
      (asked env).bind (make? (program env) (env.nonempty? "FENCELINT_NODE_PACKAGE_DIR")) := by
  unfold ofEnv asked
  cases env.get? ("FENCELINT_NODE_TIMEOUT" : Text) with
  | none => rfl
  | some t => rfl

theorem program_ne_nil (env : Environment) : program env ≠ [] := by
  cases hprogram : env.nonempty? "FENCELINT_NODE" with
  | none =>
    rw [program, hprogram]
    decide
  | some name =>
    obtain ⟨t, -, ht⟩ := Option.bind_eq_some_iff.mp hprogram
    rw [program, hprogram, Option.getD_some]
    rintro rfl
    unfold Text.nonempty? at ht
    split at ht
    · cases ht
    · rename_i hne
      exact hne (Option.some.inj ht)

section Asked

variable {env : Environment} {fault : ConfigFault} {limit : Number}

theorem asked_of_unset (h : env.get? "FENCELINT_NODE_TIMEOUT" = none) :
    asked env = .ok (some defaultTimeout) := by
  unfold asked
  rw [h]

theorem asked_of_set {t : Text} (h : env.get? "FENCELINT_NODE_TIMEOUT" = some t) :
    asked env = timeoutOf t := by
  unfold asked
  rw [h]

theorem timeoutOf_eq_error_iff {t : Text} :
    timeoutOf t = .error fault ↔ Binary64.ofText? t = none ∧ fault = .timeoutText t := by
  unfold timeoutOf
  cases Binary64.ofText? t with
  | none => simp [eq_comm]
  | some x => simp

theorem timeoutOf_eq_limit_iff {t : Text} : timeoutOf t = .ok (some limit) ↔
    ∃ x, Binary64.ofText? t = some x ∧ x.isZero = false ∧ limit = .real x := by
  unfold timeoutOf
  cases Binary64.ofText? t with
  | none => simp
  | some x =>
    constructor
    · intro h
      have hlimit := Except.ok.inj h
      split at hlimit
      · cases hlimit
      · rename_i hzero
        exact ⟨x, rfl, by simpa using hzero, (Option.some.inj hlimit).symm⟩
    · rintro ⟨_, hsame, hzero, rfl⟩
      obtain rfl := Option.some.inj hsame
      dsimp only
      rw [hzero]
      rfl

/-- A limit that is asked for is the usual one, or was read from a text and is not zero. -/
theorem asked_eq_limit_iff : asked env = .ok (some limit) ↔
    (env.get? "FENCELINT_NODE_TIMEOUT" = none ∧ limit = defaultTimeout) ∨
      ∃ t x, env.get? "FENCELINT_NODE_TIMEOUT" = some t ∧ Binary64.ofText? t = some x ∧
        x.isZero = false ∧ limit = .real x := by
  cases hset : env.get? "FENCELINT_NODE_TIMEOUT" with
  | none =>
    rw [asked_of_unset hset]
    constructor
    · intro h
      exact .inl ⟨rfl, (Option.some.inj (Except.ok.inj h)).symm⟩
    · rintro (⟨-, rfl⟩ | ⟨_, _, hset', -⟩)
      · rfl
      · cases hset'
  | some t => simp [asked_of_set hset, timeoutOf_eq_limit_iff]

theorem asked_eq_error_iff : asked env = .error fault ↔
    ∃ t, env.get? "FENCELINT_NODE_TIMEOUT" = some t ∧ Binary64.ofText? t = none ∧
      fault = .timeoutText t := by
  cases hset : env.get? "FENCELINT_NODE_TIMEOUT" with
  | none => simp [asked_of_unset hset]
  | some t => simp [asked_of_set hset, timeoutOf_eq_error_iff]

end Asked

section Made

variable {executable : Text} {dir : Option Text} {timeout : Option Number}

theorem make?_eq_error_iff (hexe : executable ≠ []) {fault : ConfigFault} :
    make? executable dir timeout = .error fault ↔
      ∃ limit, timeout = some limit ∧ limit.isNonpositive = true ∧ fault = .timeout limit := by
  rw [make?, dif_neg hexe]
  cases timeout with
  | none => simp
  | some limit =>
    dsimp only
    split
    · rename_i hlimit
      constructor
      · intro h
        exact ⟨limit, rfl, hlimit, (Except.error.inj h).symm⟩
      · rintro ⟨_, hsame, -, rfl⟩
        obtain rfl := Option.some.inj hsame
        rfl
    · rename_i hlimit
      refine iff_of_false (by nofun) ?_
      rintro ⟨_, hsame, hnon, -⟩
      obtain rfl := Option.some.inj hsame
      exact hlimit hnon

theorem timeout_of_make? {s : Settings} (h : make? executable dir timeout = .ok s) :
    s.timeout = timeout := by
  unfold make? at h
  split at h
  · cases h
  · split at h
    · obtain rfl := Except.ok.inj h
      rfl
    · split at h
      · cases h
      · obtain rfl := Except.ok.inj h
        rfl

end Made

/-- A text is turned down as a limit of time: it reads as no number, or as one below zero. -/
inductive Refused (t : Text) : ConfigFault → Prop
  | unreadable (h : Binary64.ofText? t = none) : Refused t (.timeoutText t)
  | negative {x : Binary64} (h : Binary64.ofText? t = some x) (hx : x.Negative) :
      Refused t (.timeout (.real x))

/-- A text that spells no number can be read, and its value is not below zero. -/
theorem not_refused_of_spellsNan {t : Text} (h : Binary64.SpellsNan t) (fault : ConfigFault) :
    ¬ Refused t fault := by
  have hread := Binary64.ofText?_nan_iff.mpr h
  rintro (hnone | @⟨x, hsome, hx⟩)
  · rw [hread] at hnone
    cases hnone
  · obtain rfl := Option.some.inj (hread.symm.trans hsome)
    exact hx

theorem ofEnv_eq_error_iff {env : Environment} {fault : ConfigFault} :
    ofEnv env = .error fault ↔
      ∃ t, env.get? "FENCELINT_NODE_TIMEOUT" = some t ∧ Refused t fault := by
  rw [ofEnv_eq]
  constructor
  · intro h
    cases hasked : asked env with
    | error other =>
      rw [hasked] at h
      obtain rfl := Except.error.inj h
      obtain ⟨t, hset, hread, rfl⟩ := asked_eq_error_iff.mp hasked
      exact ⟨t, hset, .unreadable hread⟩
    | ok timeout =>
      rw [hasked] at h
      obtain ⟨limit, rfl, hlimit, rfl⟩ := (make?_eq_error_iff (program_ne_nil env)).mp h
      obtain ⟨-, rfl⟩ | ⟨t, x, hset, hread, hzero, rfl⟩ := asked_eq_limit_iff.mp hasked
      · exact absurd hlimit (by decide)
      · exact ⟨t, hset, .negative hread (Binary64.negative_iff.mpr ⟨hlimit, hzero⟩)⟩
  · rintro ⟨t, hset, hread | @⟨x, hread, hx⟩⟩
    · rw [asked_eq_error_iff.mpr ⟨t, hset, hread, rfl⟩]
      rfl
    · obtain ⟨hlimit, hzero⟩ := Binary64.negative_iff.mp hx
      rw [asked_eq_limit_iff.mpr (.inr ⟨t, x, hset, hread, hzero, rfl⟩)]
      exact (make?_eq_error_iff (program_ne_nil env)).mpr ⟨.real x, rfl, hlimit, rfl⟩

theorem not_spellsNan_of_error {env : Environment} {fault : ConfigFault}
    (h : ofEnv env = .error fault) :
    ¬ ∃ t, env.get? "FENCELINT_NODE_TIMEOUT" = some t ∧ Binary64.SpellsNan t := by
  rintro ⟨t, hset, hspells⟩
  obtain ⟨t', hset', hrefused⟩ := ofEnv_eq_error_iff.mp h
  obtain rfl := Option.some.inj (hset.symm.trans hset')
  exact not_refused_of_spellsNan hspells fault hrefused

theorem asked_of_ofEnv {env : Environment} {s : Settings} (h : ofEnv env = .ok s) :
    asked env = .ok s.timeout := by
  rw [ofEnv_eq] at h
  cases hasked : asked env with
  | error fault =>
    rw [hasked] at h
    cases h
  | ok timeout =>
    rw [hasked] at h
    rw [timeout_of_make? h]

/-- Settings that are read from an environment have a limit that is above zero, or none, unless
the limit is asked for with the word for no number. -/
theorem limit_of_ofEnv {env : Environment} {s : Settings} (h : ofEnv env = .ok s) :
    (∀ limit, s.timeout = some limit → limit.Positive) ↔
      ¬ ∃ t, env.get? "FENCELINT_NODE_TIMEOUT" = some t ∧ Binary64.SpellsNan t := by
  have hasked := asked_of_ofEnv h
  constructor
  · rintro hpositive ⟨t, hset, hspells⟩
    have hread := Binary64.ofText?_nan_iff.mpr hspells
    rw [asked_eq_limit_iff.mpr (.inr ⟨t, .nan, hset, hread, rfl, rfl⟩)] at hasked
    exact hpositive (.real .nan) (Except.ok.inj hasked).symm
  · intro hspells limit hlimit
    have hkept := s.timeout_ok
    rw [hlimit] at hasked hkept
    have hsign : limit.isNonpositive = false := by simpa using hkept
    obtain hpositive | rfl := Number.isNonpositive_eq_false_iff.mp hsign
    · exact hpositive
    · obtain ⟨-, hnan⟩ | ⟨t, x, hset, hread, -, hnan⟩ := asked_eq_limit_iff.mp hasked
      · exact absurd hnan (by decide)
      · obtain rfl := Number.real.inj hnan
        exact absurd ⟨t, hset, Binary64.ofText?_nan_iff.mp hread⟩ hspells

/-- An environment is turned down, or gives settings whose program has a name and whose limit is
none or above zero, unless the text of the limit spells no number. It is turned down exactly if
that text is. -/
theorem ofEnv_limits (env : Environment) :
    (((∃ fault, ofEnv env = .error fault) ∨
      ∃ s, ofEnv env = .ok s ∧ s.executable ≠ [] ∧
        ∀ limit, s.timeout = some limit → limit.Positive) ↔
      ¬ ∃ t, env.get? "FENCELINT_NODE_TIMEOUT" = some t ∧ Binary64.SpellsNan t) ∧
    ∀ fault, ofEnv env = .error fault ↔
      ∃ t, env.get? "FENCELINT_NODE_TIMEOUT" = some t ∧ Refused t fault := by
  refine ⟨⟨?_, fun hspells => ?_⟩, fun _ => ofEnv_eq_error_iff⟩
  · rintro (⟨fault, herror⟩ | ⟨s, hok, -, hpositive⟩)
    · exact not_spellsNan_of_error herror
    · exact (limit_of_ofEnv hok).mp hpositive
  · cases h : ofEnv env with
    | error fault => exact .inl ⟨fault, rfl⟩
    | ok s => exact .inr ⟨s, rfl, s.executable_ne_nil, (limit_of_ofEnv h).mpr hspells⟩

/-- The word for no number is not turned down, and the limit it gives is not above zero. -/
theorem nan_let_through :
    ¬ ∀ env : Environment, (∃ fault, ofEnv env = .error fault) ∨
      ∃ s, ofEnv env = .ok s ∧ ∀ limit, s.timeout = some limit → limit.Positive := by
  intro h
  have hset : Environment.get? [("FENCELINT_NODE_TIMEOUT", "nan")] "FENCELINT_NODE_TIMEOUT" =
      some ("nan" : Text) := by decide
  have hspells : Binary64.SpellsNan "nan" := Binary64.ofText?_nan_iff.mp (by decide)
  obtain ⟨fault, herror⟩ | ⟨s, hok, hpositive⟩ := h [("FENCELINT_NODE_TIMEOUT", "nan")]
  · exact not_spellsNan_of_error herror ⟨_, hset, hspells⟩
  · exact (limit_of_ofEnv hok).mp hpositive ⟨_, hset, hspells⟩

end Settings

end FragmentLint
