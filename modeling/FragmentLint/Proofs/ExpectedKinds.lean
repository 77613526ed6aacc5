import FragmentLint.Proofs.EchoedSource

/-!
# Which kind of token was expected

Some parsers fail because they expected a token of a kind and found something else, and name both.
The kind is read up to the word "but", and as far as it can be: it ends at its closing quote, or
without quotes at the last "but" that can still be reached. What was found may be any text, so
where it says "but" once more, a kind without quotes runs on into it. The words "token of type" are
no part of the kind, whether it stands in quotes or not.
-/
namespace FragmentLint

namespace Text

/-- A text starts with the words of a name if its front does, or if the front reads as a beginning
of the name and what follows starts with the others. -/
theorem afterFolded?_append {words front t rest : Text}
    (h : afterFolded? words (front ++ t) = some rest) :
    (∃ r, afterFolded? words front = some r ∧ rest = r ++ t) ∨
      ∃ early late, words = early ++ late ∧ late ≠ [] ∧ ReadsAs early front ∧
        afterFolded? late t = some rest := by
  induction front generalizing words with
  | nil =>
    cases words with
    | nil => exact .inl ⟨[], rfl, (Option.some.inj h).symm⟩
    | cons w words => exact .inr ⟨[], w :: words, rfl, List.cons_ne_nil _ _, rfl, h⟩
  | cons c front ih =>
    cases words with
    | nil => exact .inl ⟨c :: front, rfl, (Option.some.inj h).symm⟩
    | cons w words =>
      rw [List.cons_append, afterFolded?] at h
      by_cases hc : fold w = fold c
      · rw [if_pos hc] at h
        obtain ⟨r, hr, rfl⟩ | ⟨early, late, rfl, hlate, hearly, hrest⟩ := ih h
        · exact .inl ⟨r, by rw [afterFolded?, if_pos hc, hr], rfl⟩
        · refine .inr ⟨w :: early, late, rfl, hlate, ?_, hrest⟩
          rw [ReadsAs, List.map_cons, List.map_cons, hc, hearly]
      · rw [if_neg hc] at h
        cases h

end Text

namespace Shape

open Text

/-- A beginning of a text that has a character and no quote goes on with "but". -/
def KindBefore (t kind : Text) : Prop :=
  ∃ rest, t = kind ++ rest ∧ kind ≠ [] ∧ '\'' ∉ kind ∧ butFollows rest = true

theorem kindBefore_cons_iff {c : Char} {t kind : Text} :
    KindBefore (c :: t) kind ↔ c ≠ '\'' ∧
      (kind = [c] ∧ butFollows t = true ∨ ∃ k, kind = c :: k ∧ KindBefore t k) := by
  constructor
  · rintro ⟨rest, ht, hne, hplain, hbut⟩
    obtain ⟨d, k, rfl⟩ := List.exists_cons_of_ne_nil hne
    obtain ⟨rfl, rfl⟩ := List.cons_eq_cons.mp ht
    obtain ⟨hc, hk⟩ := not_or.mp (mt List.mem_cons.mpr hplain)
    refine ⟨Ne.symm hc, ?_⟩
    by_cases hnil : k = []
    · subst hnil
      exact .inl ⟨rfl, hbut⟩
    · exact .inr ⟨k, rfl, rest, rfl, hnil, hk, hbut⟩
  · rintro ⟨hc, ⟨rfl, hbut⟩ | ⟨k, rfl, rest, rfl, -, hk, hbut⟩⟩
    · exact ⟨t, rfl, List.cons_ne_nil _ _, by simpa using Ne.symm hc, hbut⟩
    · exact ⟨rest, rfl, List.cons_ne_nil _ _, by simp [Ne.symm hc, hk], hbut⟩

theorem kindBeforeBut?_eq_none_iff {t : Text} :
    kindBeforeBut? t = none ↔ ∀ k, ¬ KindBefore t k := by
  induction t with
  | nil =>
    refine iff_of_true rfl fun k ⟨rest, ht, hne, _⟩ => hne ?_
    exact (List.append_eq_nil_iff.mp ht.symm).1
  | cons c t ih =>
    rw [kindBeforeBut?]
    by_cases hc : c = '\''
    · rw [if_pos hc]
      exact iff_of_true rfl fun k hk => (kindBefore_cons_iff.mp hk).1 hc
    · rw [if_neg hc, Option.or_eq_none_iff, Option.map_eq_none_iff, ih]
      simp only [kindBefore_cons_iff]
      constructor
      · rintro ⟨hlonger, hbut⟩ k ⟨-, ⟨-, hfollows⟩ | ⟨k, -, hk⟩⟩
        · rw [if_pos hfollows] at hbut
          cases hbut
        · exact hlonger k hk
      · intro hnone
        refine ⟨fun k hk => hnone (c :: k) ⟨hc, .inr ⟨k, rfl, hk⟩⟩, if_neg fun hbut => ?_⟩
        exact hnone [c] ⟨hc, .inl ⟨rfl, hbut⟩⟩

/-- What is read is a kind, and none is longer. -/
theorem kindBefore_of_kindBeforeBut? {t kind : Text} (h : kindBeforeBut? t = some kind) :
    KindBefore t kind ∧ ∀ k, KindBefore t k → k.length ≤ kind.length := by
  induction t generalizing kind with
  | nil => cases h
  | cons c t ih =>
    rw [kindBeforeBut?] at h
    by_cases hc : c = '\''
    · rw [if_pos hc] at h
      cases h
    · rw [if_neg hc] at h
      simp only [kindBefore_cons_iff]
      obtain hlonger | ⟨hnone, hbut⟩ := Option.or_eq_some_iff.mp h
      · obtain ⟨k, hk, rfl⟩ := Option.map_eq_some_iff.mp hlonger
        obtain ⟨hkind, hlongest⟩ := ih hk
        refine ⟨⟨hc, .inr ⟨k, rfl, hkind⟩⟩, ?_⟩
        rintro _ ⟨-, ⟨rfl, -⟩ | ⟨k', rfl, hk'⟩⟩
        · simp
        · exact Nat.succ_le_succ (hlongest k' hk')
      · rw [Option.map_eq_none_iff, kindBeforeBut?_eq_none_iff] at hnone
        split at hbut
        · rename_i hfollows
          obtain rfl := Option.some.inj hbut
          refine ⟨⟨hc, .inl ⟨rfl, hfollows⟩⟩, ?_⟩
          rintro _ ⟨-, ⟨rfl, -⟩ | ⟨k, rfl, hk⟩⟩
          · exact Nat.le_refl _
          · exact absurd hk (hnone k)
        · cases hbut

/-- The kind that is read is the longest one. -/
theorem kindBeforeBut?_of_longest {t kind : Text} (hkind : KindBefore t kind)
    (hlongest : ∀ k, KindBefore t k → k.length ≤ kind.length) : kindBeforeBut? t = some kind := by
  cases h : kindBeforeBut? t with
  | none => exact absurd hkind (kindBeforeBut?_eq_none_iff.mp h kind)
  | some k =>
    obtain ⟨hk, hmax⟩ := kindBefore_of_kindBeforeBut? h
    have hlength : k.length = kind.length := Nat.le_antisymm (hlongest k hk) (hmax kind hkind)
    obtain ⟨rest, rfl, -⟩ := hkind
    obtain ⟨rest', ht, -⟩ := hk
    exact congrArg some (List.append_inj ht hlength.symm).1.symm

/-- Where nothing behind a kind can be added to it, the kind is read. -/
theorem kindBeforeBut?_append {kind rest : Text} (hne : kind ≠ []) (hplain : '\'' ∉ kind)
    (hbut : butFollows rest = true) (hnone : ∀ k, ¬ KindBefore rest k) :
    kindBeforeBut? (kind ++ rest) = some kind := by
  refine kindBeforeBut?_of_longest ⟨rest, rfl, hne, hplain, hbut⟩ ?_
  rintro longer ⟨rest', hlonger, -, hquote, hbut'⟩
  obtain ⟨extra, rfl, hrest⟩ | ⟨shorter, rfl, -⟩ := List.append_eq_append_iff.mp hlonger
  · by_cases hextra : extra = []
    · simp [hextra]
    · have hplain' : '\'' ∉ extra := fun h => hquote (List.mem_append_right _ h)
      exact absurd ⟨rest', hrest, hextra, hplain', hbut'⟩ (hnone extra)
  · simp

theorem exists_kindBeforeBut? {kind rest : Text} (hne : kind ≠ []) (hplain : '\'' ∉ kind)
    (hbut : butFollows rest = true) : ∃ k, kindBeforeBut? (kind ++ rest) = some k := by
  rw [← Option.ne_none_iff_exists', Ne, kindBeforeBut?_eq_none_iff, not_forall]
  exact ⟨kind, fun h => h ⟨rest, rfl, hne, hplain, hbut⟩⟩

/-- A text that differs from "but" and does not start with a quote does not go on with it. -/
theorem butFollows_of_parts {s : Text} (h : Parts " but" s) (hquote : s.head? ≠ some '\'')
    (u : Text) : butFollows (s ++ u) = false := by
  cases s with
  | nil => exact absurd List.nil_prefix h.2
  | cons c s =>
    have hc : c ≠ '\'' := fun hc => hquote (congrArg some hc)
    rw [butFollows, afterFolded?_of_parts h]
    simp only [Option.isSome_none, Bool.false_or]
    exact fun t ht => absurd (List.cons_eq_cons.mp ht).1 hc

theorem butFollows_but (t : Text) : butFollows (" but" ++ t) = true := by
  unfold butFollows
  rw [afterFolded?_eq_some_iff.mpr ⟨" but", rfl, rfl⟩, Option.isSome_some, Bool.true_or]

theorem butFollows_quote (t : Text) : butFollows ('\'' :: (" but" ++ t)) = true := by
  unfold butFollows
  simp only [afterFolded?_eq_some_iff.mpr ⟨" but", (rfl : " but" ++ t = " but" ++ t), rfl⟩,
    Option.isSome_some, Bool.or_true]

/-- Behind a space and a quote, or a space alone, a kind is read. -/
theorem kind?_quote (t : Text) : kind? (' ' :: '\'' :: t) = kindBeforeBut? t := by
  rw [kind?, after?_eq_some_iff.mpr (rfl : ' ' :: '\'' :: t = " " ++ '\'' :: t)]
  rfl

theorem kind?_space {t : Text} (h : t.head? ≠ some '\'') :
    kind? (' ' :: t) = kindBeforeBut? t := by
  rw [kind?, after?_eq_some_iff.mpr (rfl : ' ' :: t = " " ++ t)]
  cases t with
  | nil => rfl
  | cons c t => simp [ne_of_apply_ne some h]

theorem kind?_of_ne {c : Char} (hc : ' ' ≠ c) (t : Text) : kind? (c :: t) = none := by
  have hspace : after? " " (c :: t) = none := if_neg hc
  rw [kind?, hspace]
  rfl

/-- A complaint that a token of a kind was expected and something else was found. -/
structure Expectation where
  kind : Text
  /-- What was found, and whatever else follows. -/
  found : Text
  kind_ne_nil : kind ≠ []
  kind_plain : '\'' ∉ kind

namespace Expectation

def quoted (e : Expectation) : Text :=
  "Expecting token of type '" ++ e.kind ++ "' but found " ++ e.found

def bare (e : Expectation) : Text :=
  "Expecting " ++ e.kind ++ " but found " ++ e.found

/-- What was found says "but" again, in front of its first quote or right behind it. The space in
front of what was found counts, so that "but" may be the first word of it. -/
def Resumes (e : Expectation) : Prop :=
  ∃ front rest, ' ' :: e.found = front ++ rest ∧ '\'' ∉ front ∧ butFollows rest = true

theorem resumes_iff (e : Expectation) : e.Resumes ↔
    butFollows (' ' :: e.found) = true ∨ (kindBeforeBut? (' ' :: e.found)).isSome = true := by
  rw [Option.isSome_iff_ne_none, Ne, kindBeforeBut?_eq_none_iff, not_forall_not]
  constructor
  · rintro ⟨front, rest, hfound, hplain, hbut⟩
    by_cases hnil : front = []
    · subst hnil
      exact .inl (hfound ▸ hbut)
    · exact .inr ⟨front, rest, hfound, hnil, hplain, hbut⟩
  · rintro (hbut | ⟨front, rest, hfound, -, hplain, hbut⟩)
    · exact ⟨[], _, rfl, List.not_mem_nil, hbut⟩
    · exact ⟨front, rest, hfound, hplain, hbut⟩

instance (e : Expectation) : Decidable e.Resumes :=
  decidable_of_iff _ e.resumes_iff.symm

/-- The kind is a name behind the words "token of type". -/
def Phrased (e : Expectation) (name : Text) : Prop :=
  ∃ phrase, e.kind = phrase ++ ' ' :: name ∧ ReadsAs "token of type" phrase ∧ name ≠ []

/-- What is read behind the word with which a complaint starts. -/
theorem expectedTokenAt?_expecting (t : Text) :
    expectedTokenAt? ("Expecting" ++ t) =
      (((afterFolded? " token of type" t).bind kind?).or (kind? t)).map .expectedToken := by
  rw [expectedTokenAt?, afterFolded?_eq_some_iff.mpr ⟨"Expecting", rfl, by decide⟩,
    Option.map_eq_bind]
  rfl

/-- In quotes the kind ends at the closing quote. -/
theorem kind?_quoted (e : Expectation) (t : Text) :
    kind? (' ' :: '\'' :: (e.kind ++ '\'' :: (" but" ++ t))) = some e.kind := by
  have hnone : ∀ k, ¬ KindBefore ('\'' :: (" but" ++ t)) k :=
    fun k hk => (kindBefore_cons_iff.mp hk).1 rfl
  rw [kind?_quote]
  exact kindBeforeBut?_append e.kind_ne_nil e.kind_plain (butFollows_quote t) hnone

theorem quoted_eq (e : Expectation) : e.quoted = "Expecting" ++ (" token of type" ++
    ' ' :: '\'' :: (e.kind ++ '\'' :: (" but" ++ (" found " ++ e.found)))) := by
  have hfront : ("Expecting token of type '" : Text) =
      "Expecting" ++ " token of type" ++ [' ', '\''] := by decide
  have hbehind : ("' but found " : Text) = ['\''] ++ " but" ++ " found " := by decide
  refine (congrArg₂ (fun front behind => front ++ e.kind ++ behind ++ e.found)
    hfront hbehind).trans ?_
  simp only [List.append_assoc]
  rfl

theorem expectedTokenAt?_quoted (e : Expectation) :
    expectedTokenAt? e.quoted = some (.expectedToken e.kind) := by
  rw [quoted_eq, expectedTokenAt?_expecting,
    afterFolded?_eq_some_iff.mpr ⟨" token of type", rfl, rfl⟩, Option.bind_some, e.kind?_quoted]
  rfl

def behind (e : Expectation) : Text :=
  " but found" ++ ' ' :: e.found

theorem bare_eq (e : Expectation) : e.bare = "Expecting" ++ ' ' :: (e.kind ++ e.behind) := by
  have hfront : ("Expecting " : Text) = "Expecting" ++ [' '] := by decide
  have hbehind : (" but found " : Text) = " but found" ++ [' '] := by decide
  refine (congrArg₂ (fun front behind => front ++ e.kind ++ behind ++ e.found)
    hfront hbehind).trans ?_
  simp only [List.append_assoc]
  rfl

theorem behind_eq (e : Expectation) : e.behind = " but" ++ (" found" ++ ' ' :: e.found) := by
  have hwords : (" but found" : Text) = (" but" : Text) ++ " found" := by decide
  exact (congrArg (· ++ ' ' :: e.found) hwords).trans (List.append_assoc _ _ _)

theorem butFollows_behind (e : Expectation) : butFollows e.behind = true := by
  rw [behind_eq, butFollows_but]

/-- None of the words behind the kind reads as another "but". -/
theorem parts_found {s : Text} (hs : s <:+ " but found") (hne : s ≠ [])
    (hproper : s ≠ " but found") : Parts " but" s ∧ s.head? ≠ some '\'' := by
  have hall : ∀ s ∈ (" but found" : Text).tails, s ≠ [] → s ≠ " but found" →
      Parts " but" s ∧ s.head? ≠ some '\'' := by
    decide +kernel
  exact hall s ((List.mem_tails s _).mpr hs) hne hproper

/-- Nothing can be added to the kind unless what was found says "but" again. -/
theorem not_kindBefore_behind {e : Expectation} (h : ¬ e.Resumes) (k : Text) :
    ¬ KindBefore e.behind k := by
  rintro ⟨rest, hk, hne, hplain, hbut⟩
  obtain ⟨front, rfl, hfound⟩ | ⟨s, hs, rfl⟩ := List.append_eq_append_iff.mp hk
  · have hfront : '\'' ∉ front := fun hmem => hplain (List.mem_append_right _ hmem)
    exact h ⟨front, rest, hfound, hfront, hbut⟩
  · by_cases hnil : s = []
    · subst hnil
      exact h ⟨[], _, rfl, List.not_mem_nil, hbut⟩
    · have hproper : s ≠ " but found" := by
        rintro rfl
        exact hne (List.append_left_eq_self.mp hs.symm)
      obtain ⟨hparts, hquote⟩ := parts_found ⟨k, hs.symm⟩ hnil hproper
      rw [butFollows_of_parts hparts hquote] at hbut
      cases hbut

/-- The words "token of type" cannot be read partly from the kind and partly from what follows. -/
theorem parts_behind {s : Text} (hs : s <:+ "token of type") (hne : s ≠ []) :
    Parts s " but found" := by
  have hall : ∀ s ∈ ("token of type" : Text).tails, s ≠ [] → Parts s " but found" := by
    decide +kernel
  exact hall s ((List.mem_tails s _).mpr hs) hne

theorem head?_append_behind (e : Expectation) {t : Text} (h : '\'' ∉ t) :
    (t ++ e.behind).head? ≠ some '\'' := by
  cases t with
  | nil => exact fun hc => absurd (Option.some.inj hc) (by decide)
  | cons c t => exact fun hc => h (Option.some.inj hc ▸ List.mem_cons_self)

theorem kind?_append_behind (e : Expectation) {t : Text} (h : '\'' ∉ t) :
    kind? (' ' :: (t ++ e.behind)) = kindBeforeBut? (t ++ e.behind) :=
  kind?_space (e.head?_append_behind h)

/-- The space in front of the kind is that of the words "token of type" if these are read. -/
theorem afterFolded?_phrase (t : Text) :
    afterFolded? " token of type" (' ' :: t) = afterFolded? "token of type" t := by
  show afterFolded? (' ' :: "token of type") (' ' :: t) = _
  rw [afterFolded?, if_pos rfl]

/-- What is read behind the words "token of type", if the kind starts with them. -/
theorem phrase_read (e : Expectation) {rest : Text}
    (h : afterFolded? "token of type" (e.kind ++ e.behind) = some rest) :
    ∃ phrase r, e.kind = phrase ++ r ∧ ReadsAs "token of type" phrase ∧ rest = r ++ e.behind := by
  obtain ⟨r, hr, rfl⟩ | ⟨early, late, hwords, hlate, -, hrest⟩ := afterFolded?_append h
  · obtain ⟨phrase, hkind, hreads⟩ := afterFolded?_eq_some_iff.mp hr
    exact ⟨phrase, r, hkind, hreads, rfl⟩
  · have hnone : afterFolded? late e.behind = none :=
      afterFolded?_of_parts (parts_behind ⟨early, hwords.symm⟩ hlate) _
    rw [hnone] at hrest
    cases hrest

/-- The words behind the kind are no kind themselves. -/
theorem kind?_behind {e : Expectation} (h : ¬ e.Resumes) : kind? e.behind = none := by
  have hcons : e.behind = ' ' :: ("but found" ++ ' ' :: e.found) := rfl
  have hquote : ("but found" ++ ' ' :: e.found).head? ≠ some '\'' :=
    fun hb => absurd (Option.some.inj hb) (by decide)
  rw [hcons, kind?_space hquote, kindBeforeBut?_eq_none_iff]
  intro k hk
  refine not_kindBefore_behind h (' ' :: k) ?_
  rw [hcons]
  exact kindBefore_cons_iff.mpr ⟨by decide, .inr ⟨k, rfl, hk⟩⟩

/-- Where no name stands behind the words "token of type", nothing is read behind them. -/
theorem unread_phrase {e : Expectation} (hagain : ¬ e.Resumes) (hname : ∀ name, ¬ e.Phrased name) :
    (afterFolded? "token of type" (e.kind ++ e.behind)).bind kind? = none := by
  refine Option.bind_eq_none_iff.mpr fun rest hrest => ?_
  obtain ⟨phrase, r, hkind, hreads, rfl⟩ := e.phrase_read hrest
  cases r with
  | nil => exact kind?_behind hagain
  | cons c name =>
    by_cases hc : ' ' = c
    · subst hc
      obtain rfl : name = [] := by_contra fun hne => hname name ⟨phrase, hkind, hreads, hne⟩
      exact (e.kind?_append_behind (t := []) List.not_mem_nil).trans
        (kindBeforeBut?_eq_none_iff.mpr (not_kindBefore_behind hagain))
    · exact kind?_of_ne hc _

theorem exists_expectedTokenAt?_bare (e : Expectation) :
    ∃ kind, expectedTokenAt? e.bare = some (.expectedToken kind) := by
  obtain ⟨k, hk⟩ := exists_kindBeforeBut? e.kind_ne_nil e.kind_plain e.butFollows_behind
  rw [bare_eq, expectedTokenAt?_expecting, e.kind?_append_behind e.kind_plain, hk]
  cases (afterFolded? " token of type" (' ' :: (e.kind ++ e.behind))).bind kind? with
  | none => exact ⟨k, rfl⟩
  | some name => exact ⟨name, rfl⟩

/-- The kind is what stands behind the words "token of type". -/
theorem expectedTokenAt?_phrased {e : Expectation} (hagain : ¬ e.Resumes) {name : Text}
    (h : e.Phrased name) : expectedTokenAt? e.bare = some (.expectedToken name) := by
  obtain ⟨phrase, hkind, hreads, hne⟩ := h
  have hplain : '\'' ∉ name := fun hmem => e.kind_plain (by simp [hkind, hmem])
  have hphrase : afterFolded? "token of type" (e.kind ++ e.behind) =
      some (' ' :: (name ++ e.behind)) :=
    afterFolded?_eq_some_iff.mpr ⟨phrase, by simp [hkind], hreads⟩
  rw [bare_eq, expectedTokenAt?_expecting, afterFolded?_phrase, hphrase, Option.bind_some,
    e.kind?_append_behind hplain,
    kindBeforeBut?_append hne hplain e.butFollows_behind (not_kindBefore_behind hagain)]
  rfl

/-- A kind without these words is read as it is. -/
theorem expectedTokenAt?_bare {e : Expectation} (hagain : ¬ e.Resumes)
    (hname : ∀ name, ¬ e.Phrased name) :
    expectedTokenAt? e.bare = some (.expectedToken e.kind) := by
  rw [bare_eq, expectedTokenAt?_expecting, afterFolded?_phrase, unread_phrase hagain hname,
    e.kind?_append_behind e.kind_plain, kindBeforeBut?_append e.kind_ne_nil e.kind_plain
      e.butFollows_behind (not_kindBefore_behind hagain)]
  rfl

end Expectation

/-- None of the rules that are tried before the one for an expected token recognizes a message. -/
def Unclaimed (message : Text) : Prop :=
  ∀ r ∈ rules.takeWhile (·.name != ("expected-token" : Text)), r.find? message = none

instance (message : Text) : Decidable (Unclaimed message) :=
  inferInstanceAs (Decidable (∀ _ ∈ _, _))

theorem of?_of_unclaimed {message kind : Text} (h : Unclaimed message)
    (hread : expectedTokenAt? message = some (.expectedToken kind)) :
    of? message = some (.expectedToken kind) :=
  of?_eq_some_iff.mpr ⟨⟨"expected-token", expectedTokenAt?⟩, _,
    [⟨"enumerated-alternatives", alternativesAt?⟩], rfl, h, search_of_start hread⟩

end Shape

namespace FreeText

open Text Shape

/-- A diagnostic says that a token of a kind was expected. -/
structure Expects (d : Diagnostic) (kind : Text) : Prop where
  code : d.code = .expectedToken
  line : d.line = some Line.first
  message : d.message = "Expected " ++ kind

theorem expects_of_unclaimed {message kind : Text} (h : Unclaimed message)
    (hread : expectedTokenAt? message = some (.expectedToken kind)) (code : Text) :
    ∃ d, diagnose message code = .ok d ∧ Expects d kind := by
  refine ⟨Template.expectedToken kind, ?_, ⟨rfl, rfl, rfl⟩⟩
  rw [diagnose, of?_of_unclaimed h hread]
  rfl

/-- A kind with the words "token of type" in front of it, and something found that says "but" only
behind its first quote. -/
def shouted : Expectation where
  kind := "TOKEN OF TYPE ID"
  found := "it's but"
  kind_ne_nil := by decide
  kind_plain := by decide

def phrased : Expectation where
  kind := "token of type x"
  found := "y"
  kind_ne_nil := by decide
  kind_plain := by decide

def resumed : Expectation where
  kind := "NEWLINE"
  found := "a but b"
  kind_ne_nil := by decide
  kind_plain := by decide

/-- A complaint that no earlier rule recognizes is diagnosed as an expected token on the first line.
Of a kind in quotes the whole is said, whatever was found. A kind without quotes ends at the last
"but", so as long as what was found does not say "but" again the whole is said as well, without the
words "token of type" in front of it. -/
theorem expected_kind (e : Expectation) (code : Text) :
    (Unclaimed e.quoted → ∃ d, diagnose e.quoted code = .ok d ∧ Expects d e.kind) ∧
    (Unclaimed e.bare → ∃ d kind, diagnose e.bare code = .ok d ∧ Expects d kind ∧
      (¬ e.Resumes → (∀ name, e.Phrased name → kind = name) ∧
        ((∀ name, ¬ e.Phrased name) → kind = e.kind))) := by
  refine ⟨fun h => expects_of_unclaimed h e.expectedTokenAt?_quoted code, fun h => ?_⟩
  obtain ⟨kind, hkind⟩ := e.exists_expectedTokenAt?_bare
  obtain ⟨d, hd, hexpects⟩ := expects_of_unclaimed h hkind code
  refine ⟨d, kind, hd, hexpects, fun hagain => ⟨fun name hname => ?_, fun hname => ?_⟩⟩
  · rw [Expectation.expectedTokenAt?_phrased hagain hname] at hkind
    exact (expectedToken.inj (Option.some.inj hkind)).symm
  · rw [Expectation.expectedTokenAt?_bare hagain hname] at hkind
    exact (expectedToken.inj (Option.some.inj hkind)).symm

theorem expected_kind_shouted :
    Unclaimed shouted.quoted ∧ Unclaimed shouted.bare ∧ ¬ shouted.Resumes ∧
      (∃ d, diagnose shouted.quoted "pie" = .ok d ∧ Expects d "TOKEN OF TYPE ID") ∧
      ∃ d, diagnose shouted.bare "pie" = .ok d ∧ Expects d "ID" := by
  have hquoted : Unclaimed shouted.quoted := by decide +kernel
  have hbare : Unclaimed shouted.bare := by decide +kernel
  have hagain : ¬ shouted.Resumes := by decide +kernel
  have hname : shouted.Phrased "ID" := ⟨"TOKEN OF TYPE", rfl, by decide, by decide⟩
  obtain ⟨hsaid, hbehind⟩ := expected_kind shouted "pie"
  obtain ⟨d, kind, hd, hexpects, hkind⟩ := hbehind hbare
  obtain rfl := (hkind hagain).1 _ hname
  exact ⟨hquoted, hbare, hagain, hsaid hquoted, d, hd, hexpects⟩

/-- Without quotes the words "token of type" are taken off a kind, and a kind runs on into something
found that says "but" once more. -/
theorem bare_kind_altered :
    (¬ (" but" : Text) <:+: phrased.kind ∧ Unclaimed phrased.bare ∧
      (diagnose phrased.bare "pie").toOption.map (·.message) = some "Expected x".toList) ∧
    (¬ (" but" : Text) <:+: resumed.kind ∧ Unclaimed resumed.bare ∧
      (diagnose resumed.bare "pie").toOption.map (·.message) =
        some "Expected NEWLINE but found a".toList) := by
  decide +kernel

end FreeText

end FragmentLint
