import FragmentLint.Proofs.CarrierScan
import FragmentLint.Proofs.DiagramFailures

/-!
# Where a message has its shape

A rule looks for its shape at every place of a message and takes the first place at which it can
read one. A place is told by the text from there on, so of two places the one with more text stands
further in front. The headers that name a line are described here as shapes of such a text, apart
from how they are read: words in any case, a run of digits, and what has to follow the run.
-/
namespace FragmentLint

namespace Text

theorem after?_eq_none {p t : Text} (h : ¬ p <+: t) : after? p t = none :=
  Option.eq_none_iff_forall_ne_some.mpr fun rest hrest =>
    h ⟨rest, (after?_eq_some_iff.mp hrest).symm⟩

/-- A text that would have to hold a character further back ends in front of it. -/
theorem prefix_of_not_mem_drop {p t u : Text} {c : Char} (hc : c ∉ p.drop t.length)
    (h : p <+: t ++ c :: u) : p <+: t := by
  obtain hp | ht := List.prefix_or_prefix_of_prefix h (List.prefix_append t (c :: u))
  · exact hp
  · obtain ⟨rest, rfl⟩ := ht
    rw [List.drop_left] at hc
    rw [List.prefix_append_right_inj] at h
    cases rest with
    | nil => simp
    | cons d rest => exact absurd (List.mem_cons.mpr (.inl (List.cons_prefix_cons.mp h).1.symm)) hc

theorem prefix_of_not_mem {p t u : Text} {c : Char} (hc : c ∉ p) (h : p <+: t ++ c :: u) :
    p <+: t :=
  prefix_of_not_mem_drop (fun hmem => hc (List.mem_of_mem_drop hmem)) h

/-- A text stands in a whole only if it stands on one side of a character that it does not hold. -/
theorem infix_append_cons {p t u : Text} {c : Char} (hc : c ∉ p) (h : p <:+: t ++ c :: u) :
    p <:+: t ∨ p <:+: u := by
  induction t with
  | nil =>
    obtain hstart | hbehind := List.infix_cons_iff.mp h
    · exact .inl (prefix_of_not_mem hc (t := []) hstart).isInfix
    · exact .inr hbehind
  | cons a t ih =>
    obtain hstart | hbehind := List.infix_cons_iff.mp h
    · exact .inl (prefix_of_not_mem hc (t := a :: t) hstart).isInfix
    · exact (ih hbehind).imp_left List.infix_cons

end Text

namespace Shape

open Text

section Places

variable {α β : Type}

/-- At the first place of a text at which something can be read, this is read. -/
def First (reads : Text → α → Prop) (t : Text) (a : α) : Prop :=
  ∃ u, u <:+ t ∧ reads u a ∧ ∀ v b, v <:+ t → reads v b → v.length ≤ u.length

/-- At no place of a text can anything be read. -/
def Nowhere (reads : Text → α → Prop) (t : Text) : Prop :=
  ∀ u a, u <:+ t → ¬ reads u a

theorem First.not_nowhere {reads : Text → α → Prop} {t : Text} {a : α} (h : First reads t a) :
    ¬ Nowhere reads t := by
  obtain ⟨u, hu, hreads, -⟩ := h
  exact fun hnone => hnone u a hu hreads

theorem first_of_start {reads : Text → α → Prop} {t : Text} {a : α} (h : reads t a) :
    First reads t a :=
  ⟨t, List.suffix_rfl, h, fun _ _ hv _ => hv.length_le⟩

theorem nowhere_cons_iff {reads : Text → α → Prop} {c : Char} {t : Text} :
    Nowhere reads (c :: t) ↔ (∀ a, ¬ reads (c :: t) a) ∧ Nowhere reads t := by
  constructor
  · intro h
    exact ⟨fun a => h _ a List.suffix_rfl, fun u a hu => h u a (hu.trans (List.suffix_cons c t))⟩
  · rintro ⟨hhere, hbehind⟩ u a hu
    obtain rfl | hu := List.suffix_cons_iff.mp hu
    · exact hhere a
    · exact hbehind u a hu

/-- What is read first in a text is read at its start, or behind a character at which nothing can be
read. -/
theorem first_cons_iff {reads : Text → α → Prop} {c : Char} {t : Text} {a : α} :
    First reads (c :: t) a ↔
      reads (c :: t) a ∨ (∀ b, ¬ reads (c :: t) b) ∧ First reads t a := by
  constructor
  · rintro ⟨u, hu, hreads, hfirst⟩
    obtain rfl | hu := List.suffix_cons_iff.mp hu
    · exact .inl hreads
    · refine .inr ⟨fun b hb => ?_, u, hu, hreads, fun v b hv => ?_⟩
      · -- The whole text stands in front of what is read, which is shorter.
        have hlonger := hfirst _ b List.suffix_rfl hb
        have hshorter := hu.length_le
        simp only [List.length_cons] at hlonger
        omega
      · exact hfirst v b (hv.trans (List.suffix_cons c t))
  · rintro (hreads | ⟨hhere, u, hu, hreads, hfirst⟩)
    · exact first_of_start hreads
    · refine ⟨u, hu.trans (List.suffix_cons c t), hreads, fun v b hv hb => ?_⟩
      obtain rfl | hv := List.suffix_cons_iff.mp hv
      · exact absurd hb (hhere b)
      · exact hfirst v b hv hb

variable {read? : Text → Option β} {reads : Text → α → Prop} {build : α → β}

/-- A reader gives what is built from something that can be read at the start of a text. -/
def Builds (read? : Text → Option β) (reads : Text → α → Prop) (build : α → β) : Prop :=
  ∀ t b, read? t = some b ↔ ∃ a, reads t a ∧ b = build a

theorem Builds.eq_none_iff (h : Builds read? reads build) {t : Text} :
    read? t = none ↔ ∀ a, ¬ reads t a := by
  rw [Option.eq_none_iff_forall_ne_some]
  constructor
  · exact fun hnone a ha => hnone (build a) ((h t _).mpr ⟨a, ha, rfl⟩)
  · intro hnone b hb
    obtain ⟨a, ha, -⟩ := (h t b).mp hb
    exact hnone a ha

theorem Builds.search_eq_some_iff (h : Builds read? reads build) {t : Text} {b : β} :
    search read? t = some b ↔ ∃ a, First reads t a ∧ b = build a := by
  induction t with
  | nil =>
    rw [search, h]
    refine exists_congr fun a => and_congr_left' ⟨first_of_start, ?_⟩
    rintro ⟨u, hu, hreads, -⟩
    rwa [List.suffix_nil.mp hu] at hreads
  | cons c t ih =>
    rw [search, Option.or_eq_some_iff, h, h.eq_none_iff, ih]
    simp only [first_cons_iff, or_and_right, exists_or, and_assoc, exists_and_left]

theorem Builds.search_eq_none_iff (h : Builds read? reads build) {t : Text} :
    search read? t = none ↔ Nowhere reads t := by
  induction t with
  | nil =>
    rw [search, h.eq_none_iff]
    exact ⟨fun hnone u a hu => List.suffix_nil.mp hu ▸ hnone a,
      fun hnone a => hnone [] a List.suffix_rfl⟩
  | cons c t ih =>
    rw [search, Option.or_eq_none_iff, h.eq_none_iff, ih, nowhere_cons_iff]

theorem Builds.nowhere_or_first (h : Builds read? reads build) (t : Text) :
    Nowhere reads t ∨ ∃ a, First reads t a := by
  cases hsearch : search read? t with
  | none => exact .inl (h.search_eq_none_iff.mp hsearch)
  | some b =>
    obtain ⟨a, hfirst, -⟩ := h.search_eq_some_iff.mp hsearch
    exact .inr ⟨a, hfirst⟩

/-- A search that comes to the same in two texts finds the same in both. -/
theorem Builds.first_of_search_eq (h : Builds read? reads build)
    (hbuild : Function.Injective build) {t u : Text} (hsearch : search read? t = search read? u)
    {a : α} (hfirst : First reads u a) : First reads t a := by
  have hfound := h.search_eq_some_iff.mpr ⟨a, hfirst, rfl⟩
  rw [← hsearch] at hfound
  obtain ⟨b, hfirst, heq⟩ := h.search_eq_some_iff.mp hfound
  rwa [hbuild heq]

theorem Builds.nowhere_of_search_eq (h : Builds read? reads build) {t u : Text}
    (hsearch : search read? t = search read? u) (hnone : Nowhere reads u) : Nowhere reads t := by
  rw [← h.search_eq_none_iff] at hnone ⊢
  exact hsearch.trans hnone

/-- Where nothing is read from within the front of a text on, the search goes on behind it. -/
theorem search_append_of_unread {front t : Text}
    (h : ∀ s, s <:+ front → s ≠ [] → read? (s ++ t) = none) :
    search read? (front ++ t) = search read? t := by
  induction front with
  | nil => rfl
  | cons c front ih =>
    have hhere : read? (c :: front ++ t) = none := h _ List.suffix_rfl (List.cons_ne_nil _ _)
    rw [List.cons_append] at hhere ⊢
    rw [search, hhere, Option.none_or]
    exact ih fun s hs => h s (hs.trans (List.suffix_cons c front))

end Places

/-- A run of digits that goes on as far as digits stand. -/
structure IsRun (digits rest : Text) : Prop where
  ne_nil : digits ≠ []
  all_digits : ∀ c ∈ digits, isDigit c = true
  ends : ∀ c ∈ rest.head?, isDigit c = false

theorem run?_eq_some_iff {t digits rest : Text} :
    run? t = some (digits, rest) ↔ t = digits ++ rest ∧ IsRun digits rest := by
  constructor
  · intro h
    unfold run? at h
    split at h
    · cases h
    · rename_i hne
      obtain ⟨rfl, rfl⟩ := Prod.mk.inj (Option.some.inj h)
      refine ⟨List.takeWhile_append_dropWhile.symm, fun hnil => hne hnil,
        fun c => List.mem_takeWhile_imp, fun c hc => ?_⟩
      have hnot := List.head?_dropWhile_not isDigit t
      rwa [hc] at hnot
  · rintro ⟨rfl, hne, hdigits, hends⟩
    refine run?_digits hne hdigits ?_
    cases rest with
    | nil => rfl
    | cons c rest => exact List.takeWhile_cons_of_neg (by simp [hends c rfl])

/-- A text starts with words, in any case, and a run of digits, and goes on with a rest. -/
def Numbers (words t digits rest : Text) : Prop :=
  ∃ head, t = head ++ (digits ++ rest) ∧ ReadsAs words head ∧ IsRun digits rest

theorem numbers_iff {words t digits rest : Text} :
    (afterFolded? words t).bind run? = some (digits, rest) ↔ Numbers words t digits rest := by
  simp only [Option.bind_eq_some_iff, afterFolded?_eq_some_iff, run?_eq_some_iff]
  constructor
  · rintro ⟨_, ⟨head, rfl, hreads⟩, rfl, hrun⟩
    exact ⟨head, rfl, hreads, hrun⟩
  · rintro ⟨head, rfl, hreads, hrun⟩
    exact ⟨_, ⟨head, rfl, hreads⟩, rfl, hrun⟩

/-- A text starts with the header of a parse error, which names a line by its digits. -/
def ParseHeader (t digits : Text) : Prop :=
  ∃ rest, Numbers "parse error on line " t digits (':' :: rest)

/-- A text starts with the header of a lexical error, which names a line by its digits. -/
def LexicalHeader (t digits : Text) : Prop :=
  ∃ rest, Numbers "lexical error on line " t digits rest

theorem builds_parseError : Builds parseErrorAt? ParseHeader .parseError := by
  intro t shape
  simp only [parseErrorAt?, ParseHeader, ← numbers_iff, Option.bind_eq_bind,
    Option.bind_eq_some_iff, Prod.exists, after?_eq_some_iff, Option.some.injEq]
  constructor
  · rintro ⟨u, hu, digits, _, hrun, rest, rfl, rfl⟩
    exact ⟨digits, ⟨rest, u, hu, hrun⟩, rfl⟩
  · rintro ⟨digits, ⟨rest, u, hu, hrun⟩, rfl⟩
    exact ⟨u, hu, digits, _, hrun, rest, rfl, rfl⟩

theorem builds_lexicalError : Builds lexicalErrorAt? LexicalHeader .lexicalError := by
  intro t shape
  simp only [lexicalErrorAt?, LexicalHeader, ← numbers_iff, Option.bind_eq_bind,
    Option.bind_eq_some_iff, Prod.exists, Option.some.injEq]
  constructor
  · rintro ⟨u, hu, digits, rest, hrun, rfl⟩
    exact ⟨digits, ⟨rest, u, hu, hrun⟩, rfl⟩
  · rintro ⟨digits, ⟨rest, u, hu, hrun⟩, rfl⟩
    exact ⟨u, hu, digits, rest, hrun, rfl⟩

/-- The header of a parse error is looked for before anything else. -/
theorem of?_of_parseHeader {message digits : Text} (h : First ParseHeader message digits) :
    of? message = some (.parseError digits) :=
  of?_eq_some_iff.mpr ⟨⟨"parse-error", parseErrorAt?⟩, [], _, rfl, by simp,
    builds_parseError.search_eq_some_iff.mpr ⟨digits, h, rfl⟩⟩

theorem of?_of_lexicalHeader {message digits : Text} (hparse : Nowhere ParseHeader message)
    (h : First LexicalHeader message digits) : of? message = some (.lexicalError digits) :=
  of?_eq_some_iff.mpr ⟨⟨"lexical-error", lexicalErrorAt?⟩, [⟨"parse-error", parseErrorAt?⟩], _, rfl,
    by simpa [Rule.find?] using builds_parseError.search_eq_none_iff.mpr hparse,
    builds_lexicalError.search_eq_some_iff.mpr ⟨digits, h, rfl⟩⟩

end Shape

namespace FreeText

open Text

theorem number_of_le {digits : Text} (h : digits.length ≤ digitLimit) :
    number digits = .ok (digitsValue digits) := by
  rw [number, readDigits, if_pos h]

/-- Line zero is no line; any other number is that of its line. -/
theorem number_line? (n : Nat) : (line? n).map (·.number) = if n = 0 then none else some n := by
  by_cases h : n = 0
  · simp [line?, Line.ofInt?, h]
  · have hpos : (1 : Int) ≤ n := by omega
    simp [line?, Line.ofInt?, hpos, h]

/-- A diagnostic lies on the line that a header names by its digits, and on none for line zero. -/
structure Located (d : Diagnostic) (code : Code) (digits : Text) : Prop where
  code : d.code = code
  line : d.line.map (·.number) =
    if digitsValue digits = 0 then none else some (digitsValue digits)

theorem located_parseError (digits message : Text) (hint context : Option Text) :
    Located (Template.positionalParseFailure (line? (digitsValue digits)) message hint context)
      .positionalParseFailure digits :=
  ⟨rfl, number_line? _⟩

theorem located_lexicalError (digits : Text) :
    Located (Template.lexicalFailure (line? (digitsValue digits))) .lexicalFailure digits :=
  ⟨rfl, number_line? _⟩

theorem diagnose_of_parseError {message digits : Text}
    (h : Shape.of? message = some (.parseError digits)) (hlength : digits.length ≤ digitLimit)
    (code : Text) :
    diagnose message code = .ok (Template.positionalParseFailure (line? (digitsValue digits))
      (parseErrorText message).1 (parseErrorText message).2 (Shape.excerpt? (lines message))) := by
  rw [diagnose, h]
  simp only [ofShape, number_of_le hlength]
  rfl

theorem diagnose_of_lexicalError {message digits : Text}
    (h : Shape.of? message = some (.lexicalError digits)) (hlength : digits.length ≤ digitLimit)
    (code : Text) :
    diagnose message code = .ok (Template.lexicalFailure (line? (digitsValue digits))) := by
  rw [diagnose, h]
  simp only [ofShape, number_of_le hlength]
  rfl

end FreeText

end FragmentLint
