import FragmentLint.Fragment.Entity
import Mathlib.Data.List.Infix

/-!
# Escapes that are read back

A text is escaped character by character and read back one escape at a time. As long as the
ampersand is still escaped, every ampersand of the text starts an escape, and reading one escape
undoes the writing of its character and nothing else. From the ampersand's own escape on this is no
longer so: the escapes that are read behind it are read wherever they stand, also where the text
held them from the start. So a text comes back as it was exactly if it holds none of those.
-/
namespace FragmentLint

namespace Text

variable {first : Char} {others : Text}

theorem replace_append (new rest : Text) :
    replace first others new (first :: others ++ rest) = new ++ replace first others new rest := by
  have hfound : after? (first :: others) (first :: (others ++ rest)) = some rest :=
    after?_eq_some_iff.mpr rfl
  rw [List.cons_append, replace]
  split
  · rename_i found hsome
    obtain rfl := Option.some.inj (hsome.symm.trans hfound)
    rfl
  · rename_i hnone
    rw [hfound] at hnone
    cases hnone

theorem replace_cons_of_unmatched (new : Text) {c : Char} {t : Text}
    (h : ¬ first :: others <+: c :: t) :
    replace first others new (c :: t) = c :: replace first others new t := by
  rw [replace]
  split
  · rename_i rest hsome
    exact absurd ⟨rest, (after?_eq_some_iff.mp hsome).symm⟩ h
  · rfl

theorem unmatched_of_after?_eq_none {p t : Text} (h : after? p t = none) : ¬ p <+: t := by
  rintro ⟨rest, rfl⟩
  rw [after?_eq_some_iff.mpr rfl] at h
  cases h

/-- A text in which another one does not stand is left as it is. -/
theorem replace_eq_self (new : Text) {t : Text} (h : ¬ first :: others <:+: t) :
    replace first others new t = t := by
  induction t with
  | nil => rw [replace]
  | cons c t ih =>
    rw [replace_cons_of_unmatched new fun hp => h hp.isInfix,
      ih fun hstands => h (List.infix_cons hstands)]

/-- Replacing a text by a shorter one makes no text longer, and each one shorter in which it
stands. -/
theorem length_replace {new : Text} (hnew : new.length < (first :: others).length) (t : Text) :
    (replace first others new t).length ≤ t.length ∧
      (first :: others <:+: t → (replace first others new t).length < t.length) := by
  fun_induction replace first others new t with
  | case1 => simp
  | case2 c t rest hfound ih =>
    have hlength := length_of_after? hfound
    rw [List.length_append]
    omega
  | case3 c t hnone ih =>
    have hnot := unmatched_of_after?_eq_none hnone
    refine ⟨Nat.succ_le_succ ih.1, fun hstands => ?_⟩
    obtain hstart | hstands := List.infix_cons_iff.mp hstands
    · exact absurd hstart hnot
    · exact Nat.succ_lt_succ (ih.2 hstands)

end Text

namespace Entity

/-- Escapes that can be told apart: by the characters that they stand for, and by the first
characters of their names. -/
structure Apart (es : List (Text × Char)) : Prop where
  letters : es.Pairwise fun e e' => e.2 ≠ e'.2
  heads : es.Pairwise fun e e' => e.1.head? ≠ e'.1.head?
  names : ∀ e ∈ es, e.1 ≠ [] ∧ '&' ∉ e.1

theorem Apart.tail {e : Text × Char} {es : List (Text × Char)} (h : Apart (e :: es)) : Apart es :=
  ⟨h.letters.tail, h.heads.tail, fun e' he' => h.names e' (List.mem_cons_of_mem _ he')⟩

theorem read_name (e : Text × Char) (rest : Text) :
    read e ('&' :: e.1 ++ rest) = e.2 :: read e rest :=
  Text.replace_append _ _

theorem read_nil (e : Text × Char) : read e [] = [] := by
  rw [read, Text.replace]

theorem read_cons_of_unmatched (e : Text × Char) {c : Char} {t : Text}
    (h : ¬ '&' :: e.1 <+: c :: t) : read e (c :: t) = c :: read e t :=
  Text.replace_cons_of_unmatched _ h

theorem read_cons_of_ne (e : Text × Char) {c : Char} (hc : c ≠ '&') (t : Text) :
    read e (c :: t) = c :: read e t := by
  refine read_cons_of_unmatched e fun hstart => hc ?_
  exact (List.cons_prefix_cons.mp hstart).1.symm

theorem read_append_of_not_mem (e : Text × Char) {front : Text} (h : '&' ∉ front) (t : Text) :
    read e (front ++ t) = front ++ read e t := by
  induction front with
  | nil => rfl
  | cons c front ih =>
    obtain ⟨hc, hfront⟩ := not_or.mp (mt List.mem_cons.mpr h)
    rw [List.cons_append, read_cons_of_ne e (Ne.symm hc), ih hfront, List.cons_append]

/-- Another escape is left as it is. -/
theorem read_other {e e' : Text × Char} (hhead : e.1.head? ≠ e'.1.head?) (hne : e.1 ≠ [])
    (hne' : e'.1 ≠ []) (hamp : '&' ∉ e'.1) (t : Text) :
    read e ('&' :: e'.1 ++ t) = '&' :: e'.1 ++ read e t := by
  obtain ⟨a, name, hname⟩ := List.exists_cons_of_ne_nil hne
  obtain ⟨b, name', hname'⟩ := List.exists_cons_of_ne_nil hne'
  have hnot : ¬ '&' :: e.1 <+: '&' :: (e'.1 ++ t) := by
    intro hstart
    rw [List.cons_prefix_cons, hname, hname', List.cons_append, List.cons_prefix_cons] at hstart
    rw [hname, hname', List.head?_cons, List.head?_cons] at hhead
    exact hhead (congrArg some hstart.2.1)
  rw [List.cons_append, read_cons_of_unmatched e hnot, read_append_of_not_mem e hamp,
    List.cons_append]

/-- A character as it is written with some of the escapes. -/
def write (es : List (Text × Char)) (c : Char) : Text :=
  match es.find? (·.2 = c) with
  | some e => '&' :: e.1
  | none => [c]

theorem write_self (e : Text × Char) (es : List (Text × Char)) :
    write (e :: es) e.2 = '&' :: e.1 := by
  simp [write]

theorem write_cons_of_ne {e : Text × Char} {c : Char} (hc : c ≠ e.2) (es : List (Text × Char)) :
    write (e :: es) c = write es c := by
  simp [write, Ne.symm hc]

theorem write_of_forall {es : List (Text × Char)} {c : Char} (h : ∀ e ∈ es, e.2 ≠ c) :
    write es c = [c] := by
  have hnone : es.find? (·.2 = c) = none := by simpa using h
  rw [write, hnone]

/-- A character is written with one of the escapes, or is left as it is. -/
theorem write_cases (es : List (Text × Char)) (c : Char) :
    (∃ e ∈ es, e.2 = c ∧ write es c = '&' :: e.1) ∨ ((∀ e ∈ es, e.2 ≠ c) ∧ write es c = [c]) := by
  cases hfind : es.find? (·.2 = c) with
  | some e =>
    have hletter : e.2 = c := by simpa using List.find?_some hfind
    exact .inl ⟨e, List.mem_of_find?_eq_some hfind, hletter, by rw [write, hfind]⟩
  | none =>
    have hall : ∀ e ∈ es, e.2 ≠ c := by simpa using hfind
    exact .inr ⟨hall, write_of_forall hall⟩

theorem Apart.write_letter {e : Text × Char} {es : List (Text × Char)} (h : Apart (e :: es)) :
    write es e.2 = [e.2] :=
  write_of_forall fun e' he' => Ne.symm ((List.pairwise_cons.mp h.letters).1 e' he')

theorem Apart.read_other {e e' : Text × Char} {es : List (Text × Char)} (h : Apart (e :: es))
    (he' : e' ∈ es) (t : Text) : read e ('&' :: e'.1 ++ t) = '&' :: e'.1 ++ read e t :=
  Entity.read_other ((List.pairwise_cons.mp h.heads).1 e' he') (h.names e List.mem_cons_self).1
    (h.names e' (List.mem_cons_of_mem _ he')).1 (h.names e' (List.mem_cons_of_mem _ he')).2 t

/-- As long as ampersands are written with an escape, reading an escape undoes its writing. -/
theorem read_written {e : Text × Char} {es : List (Text × Char)} (h : Apart (e :: es))
    (hamp : ∃ e' ∈ e :: es, e'.2 = '&') (t : Text) :
    read e (t.flatMap (write (e :: es))) = t.flatMap (write es) := by
  induction t with
  | nil => exact read_nil e
  | cons c t ih =>
    rw [List.flatMap_cons, List.flatMap_cons]
    by_cases hc : c = e.2
    · rw [hc, write_self, read_name, ih, h.write_letter]
      rfl
    · rw [write_cons_of_ne hc]
      obtain ⟨e', he', -, hwrite⟩ | ⟨hplain, hwrite⟩ := write_cases es c
      · rw [hwrite, h.read_other he', ih]
      · have hne : c ≠ '&' := by
          rintro rfl
          obtain ⟨e', he', hletter⟩ := hamp
          obtain rfl | he' := List.mem_cons.mp he'
          · exact hc hletter.symm
          · exact hplain e' he' hletter
        rw [hwrite, List.singleton_append, read_cons_of_ne e hne, ih]
        rfl

/-- What a written text begins with, without an ampersand, the text itself begins with. -/
theorem prefix_of_written {es : List (Text × Char)} {name t : Text} (hamp : '&' ∉ name)
    (h : name <+: t.flatMap (write es)) : name <+: t := by
  induction name generalizing t with
  | nil => exact List.nil_prefix
  | cons a name ih =>
    obtain ⟨ha, hname⟩ := not_or.mp (mt List.mem_cons.mpr hamp)
    cases t with
    | nil => exact absurd (List.prefix_nil.mp h) (List.cons_ne_nil _ _)
    | cons c t =>
      rw [List.flatMap_cons] at h
      obtain ⟨e, -, -, hwrite⟩ | ⟨-, hwrite⟩ := write_cases es c
      · rw [hwrite, List.cons_append, List.cons_prefix_cons] at h
        exact absurd h.1.symm ha
      · rw [hwrite, List.singleton_append, List.cons_prefix_cons] at h
        obtain ⟨rfl, hrest⟩ := h
        exact List.cons_prefix_cons.mpr ⟨rfl, ih hname hrest⟩

/-- Where ampersands are left as they are, reading an escape undoes its writing and reads what the
text held of it as well. -/
theorem read_written_of_plain {e : Text × Char} {es : List (Text × Char)} (h : Apart (e :: es))
    (hplain : ∀ e' ∈ e :: es, e'.2 ∉ '&' :: e.1) (t : Text) :
    read e (t.flatMap (write (e :: es))) = (read e t).flatMap (write es) := by
  have hspelled : ('&' :: e.1).flatMap (write (e :: es)) = '&' :: e.1 := by
    have hself : ∀ c ∈ '&' :: e.1, write (e :: es) c = [c] := fun c hc =>
      write_of_forall fun e' he' heq => hplain e' he' (heq ▸ hc)
    rw [List.flatMap_congr hself]
    exact List.flatMap_singleton' _
  induction t using Text.replace.induct '&' e.1 with
  | case1 => rw [List.flatMap_nil, read_nil, List.flatMap_nil]
  | case2 c t rest hfound ih =>
    rw [Text.after?_eq_some_iff.mp hfound, List.flatMap_append, hspelled, read_name, read_name, ih,
      List.flatMap_cons, h.write_letter]
    rfl
  | case3 c t hnone ih =>
    have hnot := Text.unmatched_of_after?_eq_none hnone
    rw [read_cons_of_unmatched e hnot, List.flatMap_cons, List.flatMap_cons, ← ih]
    by_cases hc : c = e.2
    · rw [hc, write_self, read_name, h.write_letter]
      rfl
    · rw [write_cons_of_ne hc]
      obtain ⟨e', he', -, hwrite⟩ | ⟨-, hwrite⟩ := write_cases es c
      · rw [hwrite, h.read_other he']
      · have hnot' : ¬ '&' :: e.1 <+: c :: t.flatMap (write (e :: es)) := by
          intro hstart
          obtain ⟨rfl, hname⟩ := List.cons_prefix_cons.mp hstart
          exact hnot (List.cons_prefix_cons.mpr
            ⟨rfl, prefix_of_written (h.names e List.mem_cons_self).2 hname⟩)
        rw [hwrite, List.singleton_append, read_cons_of_unmatched e hnot']
        rfl

/-- A text with some escapes read, one after the other. -/
def readAll (es : List (Text × Char)) (t : Text) : Text :=
  es.foldl (fun t e => read e t) t

theorem length_read {e : Text × Char} (hname : e.1 ≠ []) (t : Text) :
    (read e t).length ≤ t.length ∧ ('&' :: e.1 <:+: t → (read e t).length < t.length) := by
  have hlength := List.length_pos_iff.mpr hname
  exact Text.length_replace (by simp only [List.length_cons, List.length_nil]; omega) t

theorem length_readAll {es : List (Text × Char)} (hnames : ∀ e ∈ es, e.1 ≠ []) (t : Text) :
    (readAll es t).length ≤ t.length := by
  induction es generalizing t with
  | nil => exact Nat.le_refl _
  | cons e es ih =>
    obtain ⟨hname, hnames⟩ := List.forall_mem_cons.mp hnames
    exact Nat.le_trans (ih hnames (read e t)) (length_read hname t).1

/-- Reading escapes leaves a text as it is exactly if none of them stands in it. -/
theorem readAll_eq_self_iff {es : List (Text × Char)} (hnames : ∀ e ∈ es, e.1 ≠ []) {t : Text} :
    readAll es t = t ↔ ∀ e ∈ es, ¬ '&' :: e.1 <:+: t := by
  induction es with
  | nil => exact iff_of_true rfl (by simp)
  | cons e es ih =>
    obtain ⟨hname, hnames⟩ := List.forall_mem_cons.mp hnames
    rw [List.forall_mem_cons, ← ih hnames]
    have hstep : readAll (e :: es) t = readAll es (read e t) := rfl
    constructor
    · intro h
      have hnot : ¬ '&' :: e.1 <:+: t := by
        intro hstands
        have hshorter := (length_read hname t).2 hstands
        have hrest := length_readAll hnames (read e t)
        rw [← hstep, h] at hrest
        omega
      refine ⟨hnot, ?_⟩
      rwa [hstep, read, Text.replace_eq_self _ hnot] at h
    · rintro ⟨hnot, hrest⟩
      rw [hstep, read, Text.replace_eq_self _ hnot, hrest]

def quotes : List (Text × Char) :=
  [("quot;", '"'), ("#39;", '\'')]

/-- The escapes that are read behind the ampersand's own. -/
def late : List (Text × Char) :=
  [("quot;", '"'), ("#39;", '\''), ("nbsp;", ' ')]

/-- The escapes up to the ampersand's own, and some behind them. -/
def earlyAnd (others : List (Text × Char)) : List (Text × Char) :=
  ("lt;", '<') :: ("gt;", '>') :: ("amp;", '&') :: others

theorem encodeChar_eq_write (c : Char) : encodeChar c = write (earlyAnd quotes) c := by
  unfold encodeChar
  split_ifs with hamp hlt hgt hquot hapos
  · rw [hamp]; rfl
  · rw [hlt]; rfl
  · rw [hgt]; rfl
  · rw [hquot]; rfl
  · rw [hapos]; rfl
  · rw [write_of_forall]
    simp only [earlyAnd, quotes, List.forall_mem_cons]
    exact ⟨Ne.symm hlt, Ne.symm hgt, Ne.symm hamp, Ne.symm hquot, Ne.symm hapos, by simp⟩

theorem encodeBodyChar_eq_write (c : Char) : encodeBodyChar c = write (earlyAnd []) c := by
  unfold encodeBodyChar
  split_ifs with hamp hlt hgt
  · rw [hamp]; rfl
  · rw [hlt]; rfl
  · rw [hgt]; rfl
  · rw [write_of_forall]
    simp only [earlyAnd, List.forall_mem_cons]
    exact ⟨Ne.symm hlt, Ne.symm hgt, Ne.symm hamp, by simp⟩

theorem flatMap_write_nil (t : Text) : t.flatMap (write []) = t :=
  List.flatMap_singleton' t

/-- Up to the ampersand's own escape, reading undoes what was written. -/
theorem decode_written {others : List (Text × Char)} (h : Apart (earlyAnd others)) (t : Text) :
    decode (t.flatMap (write (earlyAnd others))) = readAll late (t.flatMap (write others)) := by
  have hsplit : ∀ u, decode u =
      readAll late (read ("amp;", '&') (read ("gt;", '>') (read ("lt;", '<') u))) := fun _ => rfl
  rw [hsplit, earlyAnd, read_written h ⟨("amp;", '&'), by simp, rfl⟩,
    read_written h.tail ⟨("amp;", '&'), by simp, rfl⟩,
    read_written h.tail.tail ⟨("amp;", '&'), by simp, rfl⟩]

theorem decode_encodeBody (t : Text) : decode (encodeBody t) = readAll late t := by
  have hapart : Apart (earlyAnd []) := ⟨by decide, by decide, by decide⟩
  rw [encodeBody, List.flatMap_congr fun c _ => encodeBodyChar_eq_write c, decode_written hapart,
    flatMap_write_nil]

theorem readAll_written_quotes (t : Text) :
    readAll late (t.flatMap (write quotes)) = readAll late t := by
  have hapart : Apart quotes := ⟨by decide, by decide, by decide⟩
  have hsplit : ∀ u, readAll late u =
      read ("nbsp;", ' ') (read ("#39;", '\'') (read ("quot;", '"') u)) := fun _ => rfl
  rw [hsplit, hsplit, quotes, read_written_of_plain hapart (by decide),
    read_written_of_plain hapart.tail (by decide), flatMap_write_nil]

theorem late_names : ∀ e ∈ late, e.1 ≠ [] := by
  decide

/-- A text that is escaped and read back has the escapes behind the ampersand's own read. It is the
text again exactly if it holds none of them. -/
theorem decode_encode (t : Text) :
    decode (encode t) = readAll late t ∧
    (decode (encode t) = t ↔
      ∀ escape ∈ (["&quot;", "&#39;", "&nbsp;"] : List Text), ¬ escape <:+: t) := by
  have hapart : Apart (earlyAnd quotes) := ⟨by decide, by decide, by decide⟩
  have hread : decode (encode t) = readAll late t := by
    rw [encode, List.flatMap_congr fun c _ => encodeChar_eq_write c, decode_written hapart,
      readAll_written_quotes]
  refine ⟨hread, ?_⟩
  have hspelled : (["&quot;", "&#39;", "&nbsp;"] : List Text) = late.map fun e => '&' :: e.1 := by
    decide
  rw [hread, readAll_eq_self_iff late_names, hspelled, List.forall_mem_map]

/-- An escaped quote does not come back as it was, but as a quote. -/
theorem escaped_quote_read_twice :
    encode "&quot;" = "&amp;quot;" ∧ decode "&amp;quot;" = "\"" ∧
      decode (encode "&quot;") ≠ "&quot;" := by
  decide +kernel

end Entity

end FragmentLint
