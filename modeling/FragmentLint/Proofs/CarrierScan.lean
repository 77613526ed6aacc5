import FragmentLint.Fragment.Extractor
import Mathlib.Data.List.TakeWhile

/-!
# What a scan for carriers finds

The shape of a carrier is stated here without reference to how it is looked for: as the pieces
that make up its opening tag, and as what may stand behind them. The scan takes carriers of that
shape from left to right. Each time it takes the first place at which one starts and reads it in
the one way in which the last class attribute counts and the body is shortest, and it goes on
behind the closing tag.
-/
namespace FragmentLint

namespace Text

/-- A piece of a text reads as a name, case aside. -/
def ReadsAs (name piece : Text) : Prop :=
  piece.map fold = name.map fold

instance (name piece : Text) : Decidable (ReadsAs name piece) :=
  inferInstanceAs (Decidable (_ = _))

/-- Between two neighbouring pieces of a text there is a word boundary. -/
def BoundaryBetween (front behind : Text) : Prop :=
  isBoundary front.getLast? behind.head? = true

theorem ReadsAs.length_eq {name piece : Text} (h : ReadsAs name piece) :
    piece.length = name.length := by
  simpa using congrArg List.length h

theorem afterFolded?_eq_some_iff {name t rest : Text} :
    afterFolded? name t = some rest ↔ ∃ piece, t = piece ++ rest ∧ ReadsAs name piece := by
  induction name generalizing t with
  | nil => simp [afterFolded?, ReadsAs, eq_comm]
  | cons a name ih =>
    cases t with
    | nil => simp [afterFolded?, ReadsAs, eq_comm (a := ([] : Text))]
    | cons c t =>
      by_cases hc : fold a = fold c
      · rw [afterFolded?, if_pos hc, ih]
        constructor
        · rintro ⟨piece, rfl, hreads⟩
          exact ⟨c :: piece, rfl, by rw [ReadsAs, List.map_cons, List.map_cons, hc, hreads]⟩
        · rintro ⟨piece, hpiece, hreads⟩
          cases piece with
          | nil => cases hreads
          | cons d piece =>
            obtain ⟨rfl, rfl⟩ := List.cons_eq_cons.mp hpiece
            exact ⟨piece, rfl, (List.cons_eq_cons.mp hreads).2⟩
      · rw [afterFolded?, if_neg hc]
        refine iff_of_false (by simp) ?_
        rintro ⟨piece, hpiece, hreads⟩
        cases piece with
        | nil => cases hreads
        | cons d piece =>
          obtain ⟨rfl, -⟩ := List.cons_eq_cons.mp hpiece
          exact hc (List.cons_eq_cons.mp hreads).1.symm

/-- Where a run of characters ends at another character. -/
theorem dropWhile_eq_cons_iff {p : Char → Bool} {t rest : Text} {c : Char} :
    t.dropWhile p = c :: rest ↔
      ∃ run, t = run ++ c :: rest ∧ (∀ d ∈ run, p d = true) ∧ p c = false := by
  constructor
  · intro h
    have hnot := List.head?_dropWhile_not p t
    rw [h] at hnot
    refine ⟨t.takeWhile p, ?_, fun d => List.mem_takeWhile_imp, hnot⟩
    rw [← h, List.takeWhile_append_dropWhile]
  · rintro ⟨run, rfl, hrun, hc⟩
    rw [List.dropWhile_append_of_pos hrun, List.dropWhile_cons_of_neg (by simp [hc])]

theorem takeWhile_of_run {p : Char → Bool} {run rest : Text} {c : Char}
    (hrun : ∀ d ∈ run, p d = true) (hc : p c = false) : (run ++ c :: rest).takeWhile p = run := by
  rw [List.takeWhile_append_of_pos hrun, List.takeWhile_cons_of_neg (by simp [hc]),
    List.append_nil]

end Text

namespace Carrier

open Text

/-- A quoted value holds one of the words between word boundaries. -/
def HoldsWord (words : List Text) (opening : Char) (value : Text) (closing : Char) : Prop :=
  ∃ word ∈ words, ∃ front piece behind, value = front ++ piece ++ behind ∧ ReadsAs word piece ∧
    BoundaryBetween (opening :: front) (piece ++ behind ++ [closing]) ∧
    BoundaryBetween (opening :: (front ++ piece)) (behind ++ [closing])

/-- A class attribute with a quoted value that holds one of the words. -/
structure Attribute (words : List Text) where
  name : Text
  blanksBefore : Text
  blanksBehind : Text
  opening : Char
  value : Text
  closing : Char
  name_reads : ReadsAs "class" name
  blanksBefore_blank : ∀ c ∈ blanksBefore, isBlank c = true
  blanksBehind_blank : ∀ c ∈ blanksBehind, isBlank c = true
  opening_quote : isQuote opening = true
  value_free : ∀ c ∈ value, isQuote c = false
  closing_quote : isQuote closing = true
  holds : HoldsWord words opening value closing

def Attribute.text {words : List Text} (a : Attribute words) : Text :=
  a.name ++ a.blanksBefore ++ '=' :: a.blanksBehind ++ a.opening :: a.value ++ [a.closing]

/-- An opening tag up to a class attribute that counts. -/
structure Head (k : Carrier) where
  name : Text
  run : Text
  classes : Attribute k.keyword.words
  name_reads : ReadsAs ('<' :: k.element) name
  run_free : '>' ∉ run
  boundary : BoundaryBetween (name ++ run) classes.text

/-- The beginning of an opening tag as it stands in a text. -/
def Head.text {k : Carrier} (h : Head k) : Text :=
  h.name ++ h.run ++ h.classes.text

def closingTag (k : Carrier) : Text :=
  "</" ++ k.element ++ ">"

/-- What stands behind the attribute ends the opening tag and goes on, somewhere, with a closing
tag. -/
def Closable (k : Carrier) (behind : Text) : Prop :=
  ∃ tail body close rest, behind = tail ++ '>' :: (body ++ close ++ rest) ∧ '>' ∉ tail ∧
    ReadsAs k.closingTag close

/-- What stands behind the attribute ends the opening tag, and the body runs to the first closing
tag. -/
def Closes (k : Carrier) (behind body rest : Text) : Prop :=
  ∃ tail close, behind = tail ++ '>' :: (body ++ close ++ rest) ∧ '>' ∉ tail ∧
    ReadsAs k.closingTag close ∧
    ∀ body' close' rest', body ++ close ++ rest = body' ++ close' ++ rest' →
      ReadsAs k.closingTag close' → body.length ≤ body'.length

/-- A carrier starts where a text starts. -/
def Starts (k : Carrier) (t : Text) : Prop :=
  ∃ (h : Head k) (behind : Text), t = h.text ++ behind ∧ k.Closable behind

/-- A text starts with a carrier of a given body, and goes on with a rest. Of several attributes
that count, the last one behind which there is a closing tag ends the opening tag. -/
def Carries (k : Carrier) (t body rest : Text) : Prop :=
  ∃ (h : Head k) (behind : Text), t = h.text ++ behind ∧ k.Closes behind body rest ∧
    ∀ (h' : Head k) (behind' : Text), t = h'.text ++ behind' → k.Closable behind' →
      h'.run.length ≤ h.run.length

/-- The carriers of a text from a place on, each with the place where it starts and its body. -/
inductive Scanned (k : Carrier) (html : Text) : Nat → List (Nat × Text) → Prop
  /-- No carrier starts at the place or behind it. -/
  | done {place : Nat} (hnone : ∀ i, place ≤ i → ¬ k.Starts (html.drop i)) :
      Scanned k html place []
  /-- A carrier starts at the first place at which one can, and the others follow behind it. -/
  | found {place i : Nat} {body rest : Text} {others : List (Nat × Text)} (hplace : place ≤ i)
      (hfirst : ∀ j, place ≤ j → j < i → ¬ k.Starts (html.drop j))
      (hcarries : k.Carries (html.drop i) body rest)
      (hothers : Scanned k html (html.length - rest.length) others) :
      Scanned k html place ((i, body) :: others)

theorem lastOf_cons (before : Option Char) (c : Char) (t : Text) :
    lastOf before (c :: t) = lastOf (some c) t := by
  cases h : t.getLast? <;> simp [lastOf, List.getLast?_cons, h]

theorem lastOf_some (c : Char) (t : Text) : lastOf (some c) t = (c :: t).getLast? := by
  cases h : t.getLast? <;> simp [lastOf, List.getLast?_cons, h]

theorem startsWithWord_iff {words : List Text} {before : Option Char} {t : Text} :
    startsWithWord words before t = true ↔ ∃ word ∈ words, ∃ piece behind, t = piece ++ behind ∧
      ReadsAs word piece ∧ isBoundary before t.head? = true ∧
      isBoundary (lastOf before piece) behind.head? = true := by
  simp only [startsWithWord, Bool.and_eq_true, List.any_eq_true]
  constructor
  · rintro ⟨hbefore, word, hword, hreads⟩
    cases hrest : afterFolded? word t with
    | none => simp [hrest] at hreads
    | some rest =>
      obtain ⟨piece, rfl, hpiece⟩ := afterFolded?_eq_some_iff.mp hrest
      simp only [hrest, ← hpiece.length_eq, List.take_left'] at hreads
      exact ⟨word, hword, piece, rest, rfl, hpiece, hbefore, hreads⟩
  · rintro ⟨word, hword, piece, rest, rfl, hpiece, hbefore, hbehind⟩
    refine ⟨hbefore, word, hword, ?_⟩
    rw [afterFolded?_eq_some_iff.mpr ⟨piece, rfl, hpiece⟩, ← hpiece.length_eq]
    simpa using hbehind

theorem holdsWord_iff {words : List Text} {before : Option Char} {t : Text} :
    holdsWord words before t = true ↔ ∃ word ∈ words, ∃ front piece behind,
      t = front ++ piece ++ behind ∧ ReadsAs word piece ∧
      isBoundary (lastOf before front) (piece ++ behind).head? = true ∧
      isBoundary (lastOf before (front ++ piece)) behind.head? = true := by
  induction t generalizing before with
  | nil =>
    rw [holdsWord, startsWithWord_iff]
    constructor
    · rintro ⟨word, hword, piece, behind, ht, hreads, hbefore, hbehind⟩
      exact ⟨word, hword, [], piece, behind, ht, hreads, ht ▸ hbefore, hbehind⟩
    · rintro ⟨word, hword, front, piece, behind, ht, hreads, hbefore, hbehind⟩
      obtain ⟨rfl, rfl, rfl⟩ : front = [] ∧ piece = [] ∧ behind = [] := by simpa using ht
      exact ⟨word, hword, [], [], rfl, hreads, hbefore, hbehind⟩
  | cons c t ih =>
    rw [holdsWord, Bool.or_eq_true, startsWithWord_iff, ih]
    constructor
    · rintro (⟨word, hword, piece, behind, ht, hreads, hbefore, hbehind⟩ |
        ⟨word, hword, front, piece, behind, rfl, hreads, hbefore, hbehind⟩)
      · exact ⟨word, hword, [], piece, behind, ht, hreads, ht ▸ hbefore, hbehind⟩
      · rw [← lastOf_cons before] at hbefore hbehind
        exact ⟨word, hword, c :: front, piece, behind, rfl, hreads, hbefore, hbehind⟩
    · rintro ⟨word, hword, front, piece, behind, ht, hreads, hbefore, hbehind⟩
      cases front with
      | nil => exact .inl ⟨word, hword, piece, behind, ht, hreads, ht ▸ hbefore, hbehind⟩
      | cons d front =>
        obtain ⟨rfl, rfl⟩ := List.cons_eq_cons.mp ht
        rw [List.cons_append, lastOf_cons] at hbehind
        rw [lastOf_cons] at hbefore
        exact .inr ⟨word, hword, front, piece, behind, rfl, hreads, hbefore, hbehind⟩

/-- No character of the words reads as a quote. -/
def QuoteFree (words : List Text) : Prop :=
  ∀ word ∈ words, ∀ c ∈ word, fold c ≠ fold '"' ∧ fold c ≠ fold '\''

theorem isQuote_iff {c : Char} : isQuote c = true ↔ c = '"' ∨ c = '\'' := by
  simp [isQuote]

theorem QuoteFree.not_mem {words : List Text} (hfree : QuoteFree words) {word piece : Text}
    (hword : word ∈ words) (hreads : ReadsAs word piece) {q : Char} (hq : isQuote q = true) :
    q ∉ piece := by
  intro hmem
  have hfold : fold q ∈ word.map fold := hreads ▸ List.mem_map_of_mem hmem
  obtain ⟨c, hc, heq⟩ := List.mem_map.mp hfold
  obtain ⟨hdouble, hsingle⟩ := hfree word hword c hc
  obtain rfl | rfl := isQuote_iff.mp hq
  · exact hdouble heq
  · exact hsingle heq

theorem isBoundary_quote {q : Char} (hq : isQuote q = true) :
    isBoundary (some q) none = false := by
  obtain rfl | rfl := isQuote_iff.mp hq
  · decide +kernel
  · decide +kernel

/-- A word without quotes that stands in a value and its closing quote stands in the value. -/
theorem holdsWord_append_closing {words : List Text} (hfree : QuoteFree words) {opening : Char}
    {value : Text} {closing : Char} (hclosing : isQuote closing = true) :
    holdsWord words (some opening) (value ++ [closing]) = true ↔
      HoldsWord words opening value closing := by
  simp only [holdsWord_iff, HoldsWord, BoundaryBetween, lastOf_some]
  constructor
  · rintro ⟨word, hword, front, piece, behind, hvalue, hreads, hfront, hbehind⟩
    rcases List.eq_nil_or_concat behind with rfl | ⟨inner, last, rfl⟩
    · exfalso
      rw [List.append_nil] at hvalue
      rcases List.eq_nil_or_concat piece with rfl | ⟨inner, last, rfl⟩
      · -- Behind the closing quote there is no boundary, so not even an empty word stands there.
        rw [List.append_nil] at hvalue hbehind
        rw [← hvalue, ← List.cons_append, List.getLast?_concat] at hbehind
        rw [List.head?_nil, isBoundary_quote hclosing] at hbehind
        cases hbehind
      · rw [List.concat_eq_append, ← List.append_assoc] at hvalue
        obtain ⟨-, hlast⟩ := List.append_inj' hvalue rfl
        obtain rfl := List.singleton_inj.mp hlast
        exact hfree.not_mem hword hreads hclosing (by simp)
    · rw [List.concat_eq_append, ← List.append_assoc] at hvalue
      obtain ⟨hinner, hlast⟩ := List.append_inj' hvalue rfl
      obtain rfl := List.singleton_inj.mp hlast
      rw [List.concat_eq_append] at hfront hbehind
      rw [← List.append_assoc] at hfront
      exact ⟨word, hword, front, piece, inner, hinner, hreads, hfront, hbehind⟩
  · rintro ⟨word, hword, front, piece, behind, rfl, hreads, hfront, hbehind⟩
    refine ⟨word, hword, front, piece, behind ++ [closing], ?_, hreads, ?_, hbehind⟩
    · rw [List.append_assoc]
    · rwa [← List.append_assoc]

theorem afterValue?_eq_some_iff {words : List Text} (hfree : QuoteFree words) {t rest : Text} :
    afterValue? words t = some rest ↔ ∃ opening value closing,
      t = opening :: (value ++ closing :: rest) ∧ isQuote opening = true ∧
      (∀ c ∈ value, isQuote c = false) ∧ isQuote closing = true ∧
      HoldsWord words opening value closing := by
  cases t with
  | nil => simp [afterValue?]
  | cons opening t =>
    simp only [afterValue?]
    constructor
    · intro h
      split at h
      · cases h
      · rename_i closing after hdrop
        obtain ⟨value, rfl, hvalue, hclosing⟩ := dropWhile_eq_cons_iff.mp hdrop
        rw [takeWhile_of_run hvalue hclosing] at h
        rw [Bool.not_eq_false'] at hclosing
        split at h
        · rename_i hholds
          obtain rfl := Option.some.inj h
          obtain ⟨hopening, hholds⟩ := Bool.and_eq_true_iff.mp hholds
          exact ⟨opening, value, closing, rfl, hopening, fun c hc => by simpa using hvalue c hc,
            hclosing, (holdsWord_append_closing hfree hclosing).mp hholds⟩
        · cases h
    · rintro ⟨opening', value, closing, ht, hopening, hvalue, hclosing, hholds⟩
      obtain ⟨rfl, rfl⟩ := List.cons_eq_cons.mp ht
      have hrun : ∀ c ∈ value, (!isQuote c) = true := fun c hc => by simp [hvalue c hc]
      have hend : (!isQuote closing) = false := by simp [hclosing]
      rw [dropWhile_eq_cons_iff.mpr ⟨value, rfl, hrun, hend⟩, takeWhile_of_run hrun hend]
      simp only [hopening, (holdsWord_append_closing hfree hclosing).mpr hholds, Bool.and_self,
        if_true]

theorem isBlank_of_isQuote {c : Char} (h : isQuote c = true) : isBlank c = false := by
  obtain rfl | rfl := isQuote_iff.mp h <;> decide

theorem afterSign?_eq_some_iff {t rest : Text} :
    after? "=" (trimStart t) = some rest ↔
      ∃ blanks, t = blanks ++ '=' :: rest ∧ ∀ c ∈ blanks, isBlank c = true := by
  rw [after?_eq_some_iff]
  constructor
  · intro h
    obtain ⟨blanks, ht, hblanks, -⟩ := dropWhile_eq_cons_iff.mp h
    exact ⟨blanks, ht, hblanks⟩
  · rintro ⟨blanks, ht, hblanks⟩
    exact dropWhile_eq_cons_iff.mpr ⟨blanks, ht, hblanks, by decide⟩

theorem afterAttribute?_eq_some_iff {words : List Text} (hfree : QuoteFree words)
    {before : Option Char} {t rest : Text} :
    afterAttribute? words before t = some rest ↔
      isBoundary before t.head? = true ∧ ∃ a : Attribute words, t = a.text ++ rest := by
  simp only [afterAttribute?, Option.ite_none_right_eq_some, Option.bind_eq_some_iff]
  refine and_congr_right fun _ => ?_
  constructor
  · rintro ⟨u, ⟨w, hname, hsign⟩, hvalue⟩
    obtain ⟨name, rfl, hreads⟩ := afterFolded?_eq_some_iff.mp hname
    obtain ⟨blanks, rfl, hblanks⟩ := afterSign?_eq_some_iff.mp hsign
    obtain ⟨opening, value, closing, hu, hopening, hfreeValue, hclosing, hholds⟩ :=
      (afterValue?_eq_some_iff hfree).mp hvalue
    obtain ⟨blanks', rfl, hblanks', -⟩ := dropWhile_eq_cons_iff.mp hu
    refine ⟨⟨name, blanks, blanks', opening, value, closing, hreads, hblanks, hblanks', hopening,
      hfreeValue, hclosing, hholds⟩, ?_⟩
    simp [Attribute.text]
  · rintro ⟨a, rfl⟩
    refine ⟨a.blanksBehind ++ a.opening :: (a.value ++ a.closing :: rest),
      ⟨a.blanksBefore ++ '=' :: (a.blanksBehind ++ a.opening :: (a.value ++ a.closing :: rest)),
        ?_, ?_⟩, ?_⟩
    · exact afterFolded?_eq_some_iff.mpr ⟨a.name, by simp [Attribute.text], a.name_reads⟩
    · exact afterSign?_eq_some_iff.mpr ⟨a.blanksBefore, rfl, a.blanksBefore_blank⟩
    · have htrim : trimStart (a.blanksBehind ++ a.opening :: (a.value ++ a.closing :: rest)) =
          a.opening :: (a.value ++ a.closing :: rest) :=
        dropWhile_eq_cons_iff.mpr
          ⟨a.blanksBehind, rfl, a.blanksBehind_blank, isBlank_of_isQuote a.opening_quote⟩
      rw [htrim]
      exact (afterValue?_eq_some_iff hfree).mpr ⟨a.opening, a.value, a.closing, rfl,
        a.opening_quote, a.value_free, a.closing_quote, a.holds⟩

theorem Attribute.head?_append {words : List Text} (a : Attribute words) (t : Text) :
    (a.text ++ t).head? = a.text.head? := by
  cases h : a.text with
  | nil => simp [Attribute.text] at h
  | cons c u => rfl

theorem cutAt?_of_readsAs {stop close : Text} (hreads : ReadsAs stop close) (front rest : Text) :
    (cutAt? stop (front ++ close ++ rest)).isSome := by
  have hhere : afterFolded? stop (close ++ rest) = some rest :=
    afterFolded?_eq_some_iff.mpr ⟨close, rfl, hreads⟩
  induction front with
  | nil =>
    rw [List.nil_append]
    cases ht : close ++ rest with
    | nil => rw [cutAt?, ← ht, hhere]; rfl
    | cons c t => rw [cutAt?, ← ht, hhere]; rfl
  | cons c front ih =>
    rw [List.cons_append, List.cons_append, cutAt?]
    split
    · rfl
    · rwa [Option.isSome_map]

/-- A text is cut at the first place where the other one stands. -/
theorem cutAt?_eq_some {stop t front rest : Text} (h : cutAt? stop t = some (front, rest)) :
    ∃ close, t = front ++ close ++ rest ∧ ReadsAs stop close ∧
      ∀ front' close' rest', t = front' ++ close' ++ rest' → ReadsAs stop close' →
        front.length ≤ front'.length := by
  induction t generalizing front with
  | nil =>
    obtain ⟨r, hr, heq⟩ := Option.map_eq_some_iff.mp h
    obtain ⟨rfl, rfl⟩ := Prod.mk.injEq .. ▸ heq
    obtain ⟨close, hclose, hreads⟩ := afterFolded?_eq_some_iff.mp hr
    exact ⟨close, hclose, hreads, fun _ _ _ _ _ => Nat.zero_le _⟩
  | cons c t ih =>
    rw [cutAt?] at h
    split at h
    · rename_i r hr
      obtain ⟨rfl, rfl⟩ := Prod.mk.injEq .. ▸ Option.some.inj h
      obtain ⟨close, hclose, hreads⟩ := afterFolded?_eq_some_iff.mp hr
      exact ⟨close, hclose, hreads, fun _ _ _ _ _ => Nat.zero_le _⟩
    · rename_i hnot
      obtain ⟨⟨inner, r⟩, hcut, heq⟩ := Option.map_eq_some_iff.mp h
      obtain ⟨rfl, rfl⟩ := Prod.mk.injEq .. ▸ heq
      obtain ⟨close, rfl, hreads, hshortest⟩ := ih hcut
      refine ⟨close, rfl, hreads, fun front' close' rest' ht hreads' => ?_⟩
      cases front' with
      | nil =>
        rw [afterFolded?_eq_some_iff.mpr ⟨close', ht, hreads'⟩] at hnot
        cases hnot
      | cons d front' =>
        obtain ⟨-, ht⟩ := List.cons_eq_cons.mp ht
        exact Nat.succ_le_succ (hshortest front' close' rest' ht hreads')

theorem body?_eq_of_run (k : Carrier) {tail t : Text} (h : '>' ∉ tail) :
    k.body? (tail ++ '>' :: t) = cutAt? k.closingTag t := by
  have hdrop : (tail ++ '>' :: t).dropWhile (· != '>') = '>' :: t :=
    dropWhile_eq_cons_iff.mpr
      ⟨tail, rfl, fun c hc => bne_iff_ne.mpr fun heq => h (heq ▸ hc), by decide⟩
  rw [body?, hdrop]
  rfl

theorem closes_iff {k : Carrier} {behind body rest : Text} :
    k.Closes behind body rest ↔ k.body? behind = some (body, rest) := by
  constructor
  · rintro ⟨tail, close, rfl, htail, hreads, hshortest⟩
    rw [body?_eq_of_run k htail]
    obtain ⟨⟨front, other⟩, hcut⟩ := Option.isSome_iff_exists.mp
      (cutAt?_of_readsAs hreads body rest)
    obtain ⟨close', heq, hreads', hshortest'⟩ := cutAt?_eq_some hcut
    have hlength : body.length = front.length :=
      Nat.le_antisymm (hshortest _ _ _ heq hreads') (hshortest' _ _ _ rfl hreads)
    rw [List.append_assoc, List.append_assoc] at heq
    obtain ⟨rfl, hbehind⟩ := List.append_inj heq hlength
    obtain ⟨-, rfl⟩ := List.append_inj hbehind (hreads.length_eq.trans hreads'.length_eq.symm)
    exact hcut
  · intro h
    unfold body? at h
    split at h
    · cases h
    · rename_i c t hdrop
      obtain ⟨tail, rfl, htail, hc⟩ := dropWhile_eq_cons_iff.mp hdrop
      obtain rfl : c = '>' := by simpa using hc
      obtain ⟨close, rfl, hreads, hshortest⟩ := cutAt?_eq_some h
      exact ⟨tail, close, rfl, fun hmem => by simpa using htail _ hmem, hreads, hshortest⟩

theorem Closes.closable {k : Carrier} {behind body rest : Text} (h : k.Closes behind body rest) :
    k.Closable behind := by
  obtain ⟨tail, close, hbehind, htail, hreads, -⟩ := h
  exact ⟨tail, body, close, rest, hbehind, htail, hreads⟩

theorem closable_iff {k : Carrier} {behind : Text} :
    k.Closable behind ↔ ∃ body rest, k.Closes behind body rest := by
  constructor
  · rintro ⟨tail, body, close, rest, rfl, htail, hreads⟩
    obtain ⟨⟨front, other⟩, hcut⟩ := Option.isSome_iff_exists.mp
      (cutAt?_of_readsAs hreads body rest)
    exact ⟨front, other, closes_iff.mpr ((body?_eq_of_run k htail).trans hcut)⟩
  · rintro ⟨body, rest, h⟩
    exact h.closable

/-- Behind a run without `>`, which follows a given character, stands a class attribute that
counts. -/
def InTag (k : Carrier) (before : Option Char) (t run behind : Text) : Prop :=
  '>' ∉ run ∧ ∃ u, t = run ++ u ∧
    afterAttribute? k.keyword.words (lastOf before run) u = some behind

theorem inTag_nil_iff {k : Carrier} {before : Option Char} {t behind : Text} :
    k.InTag before t [] behind ↔ afterAttribute? k.keyword.words before t = some behind := by
  constructor
  · rintro ⟨-, u, rfl, h⟩
    exact h
  · intro h
    exact ⟨List.not_mem_nil, t, rfl, h⟩

theorem inTag_cons_iff {k : Carrier} {before : Option Char} {c d : Char} {t run behind : Text} :
    k.InTag before (c :: t) (d :: run) behind ↔
      d = c ∧ c ≠ '>' ∧ k.InTag (some c) t run behind := by
  constructor
  · rintro ⟨hfree, u, ht, h⟩
    obtain ⟨rfl, rfl⟩ := List.cons_eq_cons.mp ht
    obtain ⟨hc, hfree⟩ := not_or.mp (mt List.mem_cons.mpr hfree)
    rw [lastOf_cons] at h
    exact ⟨rfl, Ne.symm hc, hfree, u, rfl, h⟩
  · rintro ⟨rfl, hc, hfree, u, rfl, h⟩
    rw [← lastOf_cons before] at h
    exact ⟨by simp [Ne.symm hc, hfree], u, rfl, h⟩

theorem not_inTag_nil {k : Carrier} {before : Option Char} {run behind : Text} :
    ¬ k.InTag before [] run behind := by
  rintro ⟨-, u, ht, h⟩
  obtain ⟨rfl, rfl⟩ := List.append_eq_nil_iff.mp ht.symm
  simp [afterAttribute?, afterFolded?] at h

theorem inTag?_eq_none {k : Carrier} {before : Option Char} {t : Text}
    (h : k.inTag? before t = none) {run behind : Text} (hin : k.InTag before t run behind) :
    k.body? behind = none := by
  induction t generalizing before run with
  | nil => exact absurd hin not_inTag_nil
  | cons c t ih =>
    obtain ⟨hlater, hhere⟩ := Option.or_eq_none_iff.mp h
    cases run with
    | nil => rwa [inTag_nil_iff.mp hin, Option.bind_some] at hhere
    | cons d run =>
      obtain ⟨-, hc, hin⟩ := inTag_cons_iff.mp hin
      rw [if_neg hc] at hlater
      exact ih hlater hin

/-- The attribute that counts stands behind the longest run behind which a body can be read. -/
theorem inTag?_eq_some {k : Carrier} {before : Option Char} {t body rest : Text}
    (h : k.inTag? before t = some (body, rest)) :
    ∃ run behind, k.InTag before t run behind ∧ k.body? behind = some (body, rest) ∧
      ∀ run' behind', k.InTag before t run' behind' → k.body? behind' ≠ none →
        run'.length ≤ run.length := by
  induction t generalizing before with
  | nil => cases h
  | cons c t ih =>
    obtain hlater | ⟨hlater, hhere⟩ := Option.or_eq_some_iff.mp h
    · by_cases hc : c = '>'
      · rw [if_pos hc] at hlater
        cases hlater
      · rw [if_neg hc] at hlater
        obtain ⟨run, behind, hin, hbody, hlongest⟩ := ih hlater
        refine ⟨c :: run, behind, inTag_cons_iff.mpr ⟨rfl, hc, hin⟩, hbody, ?_⟩
        intro run' behind' hin' hbody'
        cases run' with
        | nil => exact Nat.zero_le _
        | cons d run' =>
          obtain ⟨-, -, hin'⟩ := inTag_cons_iff.mp hin'
          exact Nat.succ_le_succ (hlongest run' behind' hin' hbody')
    · obtain ⟨behind, hattribute, hbody⟩ := Option.bind_eq_some_iff.mp hhere
      refine ⟨[], behind, inTag_nil_iff.mpr hattribute, hbody, ?_⟩
      intro run' behind' hin' hbody'
      cases run' with
      | nil => exact Nat.le_refl _
      | cons d run' =>
        obtain ⟨-, hc, hin'⟩ := inTag_cons_iff.mp hin'
        rw [if_neg hc] at hlater
        exact absurd (inTag?_eq_none hlater hin') hbody'

theorem InTag.eq_of_length_eq {k : Carrier} {before : Option Char}
    {t run behind run' behind' : Text} (h : k.InTag before t run behind)
    (h' : k.InTag before t run' behind') (hlength : run.length = run'.length) :
    run = run' ∧ behind = behind' := by
  obtain ⟨-, u, rfl, hu⟩ := h
  obtain ⟨-, u', ht, hu'⟩ := h'
  obtain ⟨rfl, rfl⟩ := List.append_inj ht hlength
  exact ⟨rfl, Option.some.inj (hu.symm.trans hu')⟩

/-- Where the name of the element is read, what may follow is a beginning of the opening tag. -/
theorem head_iff_inTag {k : Carrier} (hfree : QuoteFree k.keyword.words) {name u run behind : Text}
    (hreads : ReadsAs ('<' :: k.element) name) :
    (∃ h : Head k, h.run = run ∧ name ++ u = h.text ++ behind) ↔
      k.InTag name.getLast? u run behind := by
  have hname : name ≠ [] := by
    rintro rfl
    cases hreads
  have hlast : lastOf name.getLast? run = (name ++ run).getLast? := by
    rw [lastOf, List.getLast?_append]
  simp only [InTag, hlast, afterAttribute?_eq_some_iff hfree]
  constructor
  · rintro ⟨h, rfl, htext⟩
    rw [Head.text, List.append_assoc, List.append_assoc] at htext
    obtain ⟨rfl, rfl⟩ := List.append_inj htext
      (hreads.length_eq.trans h.name_reads.length_eq.symm)
    exact ⟨h.run_free, _, rfl, by rw [h.classes.head?_append]; exact h.boundary, h.classes, rfl⟩
  · rintro ⟨hrun, _, rfl, hboundary, a, rfl⟩
    rw [a.head?_append] at hboundary
    exact ⟨⟨name, run, a, hreads, hrun, hboundary⟩, rfl, by simp [Head.text]⟩

theorem match?_eq_of_name (k : Carrier) {name : Text} (hreads : ReadsAs ('<' :: k.element) name)
    (u : Text) : k.match? (name ++ u) = k.inTag? name.getLast? u := by
  have hlength : k.element.length + 1 = name.length := hreads.length_eq.symm
  rw [match?, afterFolded?_eq_some_iff.mpr ⟨name, rfl, hreads⟩]
  simp only [hlength, List.take_left]

/-- A text that starts like an opening tag with a class attribute starts with the element's
name. -/
theorem Head.exists_rest {k : Carrier} {t behind : Text} (h : Head k)
    (ht : t = h.text ++ behind) : ∃ u, t = h.name ++ u :=
  ⟨h.run ++ h.classes.text ++ behind, by simp [ht, Head.text]⟩

/-- What is matched is read as a carrier: its run in front of the attribute is the longest one, and
its body the shortest. -/
theorem carries_of_match? {k : Carrier} (hfree : QuoteFree k.keyword.words)
    {t body rest : Text} (h : k.match? t = some (body, rest)) : k.Carries t body rest := by
  cases hname : afterFolded? ('<' :: k.element) t with
  | none => simp [match?, hname] at h
  | some u =>
    obtain ⟨name, rfl, hreads⟩ := afterFolded?_eq_some_iff.mp hname
    rw [match?_eq_of_name k hreads] at h
    obtain ⟨run, behind, hin, hbody, hlongest⟩ := inTag?_eq_some h
    obtain ⟨head, rfl, htext⟩ := (head_iff_inTag hfree hreads).mpr hin
    refine ⟨head, behind, htext, closes_iff.mpr hbody, fun head' behind' htext' hclosable => ?_⟩
    obtain ⟨body', rest', hcloses⟩ := closable_iff.mp hclosable
    refine hlongest head'.run behind' ((head_iff_inTag hfree hreads).mp ⟨head', rfl, htext'⟩) ?_
    rw [closes_iff.mp hcloses]
    exact Option.some_ne_none _

theorem not_starts_of_match? {k : Carrier} (hfree : QuoteFree k.keyword.words) {t : Text}
    (h : k.match? t = none) : ¬ k.Starts t := by
  rintro ⟨head, behind, htext, hclosable⟩
  obtain ⟨u, rfl⟩ := head.exists_rest htext
  rw [match?_eq_of_name k head.name_reads] at h
  have hin := (head_iff_inTag hfree head.name_reads).mp ⟨head, rfl, htext⟩
  obtain ⟨body, rest, hcloses⟩ := closable_iff.mp hclosable
  have hnone := inTag?_eq_none h hin
  rw [closes_iff.mp hcloses] at hnone
  cases hnone

theorem Carries.starts {k : Carrier} {t body rest : Text} (h : k.Carries t body rest) :
    k.Starts t := by
  obtain ⟨head, behind, htext, hcloses, -⟩ := h
  exact ⟨head, behind, htext, hcloses.closable⟩

/-- A carrier is read in one way only. -/
theorem Carries.eq {k : Carrier} (hfree : QuoteFree k.keyword.words) {t body rest : Text}
    {body' rest' : Text} (h : k.Carries t body rest) (h' : k.Carries t body' rest') :
    body = body' ∧ rest = rest' := by
  obtain ⟨head, behind, htext, hcloses, hlongest⟩ := h
  obtain ⟨head', behind', htext', hcloses', hlongest'⟩ := h'
  have hlength : head.run.length = head'.run.length :=
    Nat.le_antisymm (hlongest' head behind htext hcloses.closable)
      (hlongest head' behind' htext' hcloses'.closable)
  obtain ⟨u, rfl⟩ := head.exists_rest htext
  have hin := (head_iff_inTag hfree head.name_reads).mp ⟨head, rfl, htext⟩
  have hin' := (head_iff_inTag hfree head.name_reads).mp ⟨head', rfl, htext'⟩
  obtain ⟨-, rfl⟩ := hin.eq_of_length_eq hin' hlength
  have hsame := (closes_iff.mp hcloses).symm.trans (closes_iff.mp hcloses')
  simpa using hsame

/-- A carrier at a place of a text, seen from the start of the text. -/
def sighting (html : Text) (found : Nat × Text) : Sighting :=
  ⟨newlines (html.take found.1), trim (Entity.decode found.2)⟩

theorem not_starts_nil {k : Carrier} : ¬ k.Starts [] := by
  rintro ⟨head, behind, htext, -⟩
  have hname : head.name = [] := by
    simp only [Head.text, List.append_assoc] at htext
    exact (List.append_eq_nil_iff.mp htext.symm).1
  have hreads := head.name_reads
  rw [hname] at hreads
  cases hreads

theorem Carries.exists_piece {k : Carrier} {t body rest : Text} (h : k.Carries t body rest) :
    ∃ piece, t = piece ++ rest := by
  obtain ⟨head, behind, rfl, ⟨tail, close, rfl, -⟩, -⟩ := h
  exact ⟨head.text ++ (tail ++ '>' :: (body ++ close)), by simp⟩

/-- Where no carrier starts, the first one stands further behind. -/
theorem Scanned.step {k : Carrier} {html : Text} {place : Nat} {found : List (Nat × Text)}
    (hnot : ¬ k.Starts (html.drop place)) (h : Scanned k html (place + 1) found) :
    Scanned k html place found := by
  have hhere : ∀ j, place ≤ j → ¬ place + 1 ≤ j → ¬ k.Starts (html.drop j) := by
    intro j hj hnext
    obtain rfl : j = place := by omega
    exact hnot
  cases h with
  | done hnone =>
    refine .done fun i hi => ?_
    by_cases hnext : place + 1 ≤ i
    · exact hnone i hnext
    · exact hhere i hi hnext
  | found hplace hfirst hcarries hothers =>
    refine .found (Nat.le_of_succ_le hplace) (fun j hj hji => ?_) hcarries hothers
    by_cases hnext : place + 1 ≤ j
    · exact hfirst j hnext hji
    · exact hhere j hj hnext

/-- There is one way only to take the carriers of a text. -/
theorem Scanned.eq {k : Carrier} (hfree : QuoteFree k.keyword.words) {html : Text} {place : Nat}
    {found found' : List (Nat × Text)} (h : Scanned k html place found)
    (h' : Scanned k html place found') : found = found' := by
  induction h generalizing found' with
  | done hnone =>
    cases h' with
    | done => rfl
    | found hplace _ hcarries _ => exact absurd hcarries.starts (hnone _ hplace)
  | @found place i body rest others hplace hfirst hcarries _ ih =>
    cases h' with
    | done hnone => exact absurd hcarries.starts (hnone _ hplace)
    | @found _ j body' rest' others' hplace' hfirst' hcarries' hothers' =>
      obtain rfl : i = j := by
        obtain hlt | heq | hgt := Nat.lt_trichotomy i j
        · exact absurd hcarries.starts (hfirst' i hplace hlt)
        · exact heq
        · exact absurd hcarries'.starts (hfirst j hplace' hgt)
      obtain ⟨rfl, rfl⟩ := hcarries.eq hfree hcarries'
      rw [ih hothers']

/-- The scan of what stands behind a piece of a text takes the carriers from there on. -/
theorem scanned_scanBelow {k : Carrier} (hfree : QuoteFree k.keyword.words) (front t : Text) :
    ∃ found, Scanned k (front ++ t) front.length found ∧
      k.scanBelow (newlines front) t = found.map (sighting (front ++ t)) := by
  induction hn : t.length using Nat.strong_induction_on generalizing front t with
  | _ n ih =>
    subst hn
    cases t with
    | nil =>
      refine ⟨[], .done fun i hi => ?_, by rw [scanBelow]; rfl⟩
      rw [List.append_nil, List.drop_eq_nil_of_le hi]
      exact not_starts_nil
    | cons c t =>
      have hhere : (front ++ c :: t).drop front.length = c :: t := List.drop_left
      rw [scanBelow]
      split
      · rename_i body rest hmatch
        have hcarries := carries_of_match? hfree hmatch
        obtain ⟨piece, hpiece⟩ := hcarries.exists_piece
        have hshorter := length_of_match? hmatch
        obtain ⟨others, hothers, hmap⟩ := ih rest.length hshorter (front ++ piece) rest rfl
        have hhtml : front ++ piece ++ rest = front ++ c :: t := by rw [hpiece, List.append_assoc]
        have hplace : (front ++ c :: t).length - rest.length = (front ++ piece).length := by
          rw [← hhtml, List.length_append, Nat.add_sub_cancel]
        have habove : newlines front + (newlines (c :: t) - newlines rest) =
            newlines (front ++ piece) := by
          rw [hpiece, newlines_append, newlines_append, Nat.add_sub_cancel]
        rw [hhtml] at hothers hmap
        have hfirst : ∀ j, front.length ≤ j → j < front.length →
            ¬ k.Starts ((front ++ c :: t).drop j) :=
          fun j hj hlt => absurd hlt (Nat.not_lt.mpr hj)
        rw [← hhere] at hcarries
        rw [← hplace] at hothers
        refine ⟨(front.length, body) :: others,
          .found (Nat.le_refl _) hfirst hcarries hothers, ?_⟩
        rw [habove, hmap, List.map_cons, sighting, List.take_left]
      · rename_i hmatch
        have hnot : ¬ k.Starts ((front ++ c :: t).drop front.length) := by
          rw [hhere]
          exact not_starts_of_match? hfree hmatch
        obtain ⟨found, hfound, hmap⟩ := ih t.length (by simp) (front ++ [c]) t rfl
        have hhtml : front ++ [c] ++ t = front ++ c :: t := by simp
        have habove : (if c = '\n' then newlines front + 1 else newlines front) =
            newlines (front ++ [c]) := by
          by_cases hc : c = '\n' <;> simp [newlines, hc]
        rw [hhtml, List.length_append] at hfound
        rw [hhtml] at hmap
        exact ⟨found, hfound.step hnot, by rw [habove, hmap]⟩

theorem quoteFree_of_mem {family : Family} {k : Carrier} (h : k ∈ family.carriers) :
    QuoteFree k.keyword.words := by
  have hall : (family.carriers.all fun k => k.keyword.words.all fun word => word.all fun c =>
      fold c != fold '"' && fold c != fold '\'') = true := by
    cases family <;> decide
  intro word hword c hc
  have hchar := List.all_eq_true.mp
    (List.all_eq_true.mp (List.all_eq_true.mp hall k h) word hword) c hc
  obtain ⟨hdouble, hsingle⟩ := Bool.and_eq_true_iff.mp hchar
  exact ⟨bne_iff_ne.mp hdouble, bne_iff_ne.mp hsingle⟩

/-- A carrier with `>` in one of its two class attributes, and one without a closing tag. -/
def quotedBracket : Text :=
  "<p>\n<DIV title='x' class='a mermaid >' class=\"b\">A --&gt; B </div>\n<div class='mermaid'>"

/-- The fragments that a scan of a text on a line gives are those of the carriers of the text, each
on the line on which its carrier starts. There is one way only to take the carriers. -/
theorem scan_exact {family : Family} {k : Carrier} (hk : k ∈ family.carriers) (html : Text)
    (start : Line) :
    ∃ found, Scanned k html 0 found ∧ (∀ found', Scanned k html 0 found' → found' = found) ∧
      (k.scan html).map (fun s => Mark.fragment ⟨start, s.above, s.code⟩) =
        found.map fun (place, body) =>
          ⟨trim (Entity.decode body), start.down (newlines (html.take place))⟩ := by
  have hfree := quoteFree_of_mem hk
  obtain ⟨found, hfound, hmap⟩ := scanned_scanBelow hfree [] html
  refine ⟨found, hfound, fun found' h => h.eq hfree hfound, ?_⟩
  rw [scan]
  rw [List.nil_append] at hmap
  rw [show (0 : Nat) = newlines [] from rfl, hmap, List.map_map]
  rfl

theorem scan_exact_quotedBracket :
    ∃ found, Scanned ⟨"div", .plain "mermaid"⟩ quotedBracket 0 found ∧
      (found.map fun (place, body) =>
        (⟨trim (Entity.decode body), Line.first.down (newlines (quotedBracket.take place))⟩ :
          Fragment)) = [⟨"A --> B", ⟨2, by decide⟩⟩] := by
  have hk : (⟨"div", .plain "mermaid"⟩ : Carrier) ∈ Family.carriers .mermaid := by decide
  obtain ⟨found, hfound, -, hmap⟩ := scan_exact hk quotedBracket Line.first
  exact ⟨found, hfound, hmap.symm.trans (by decide +kernel)⟩

end Carrier

end FragmentLint
