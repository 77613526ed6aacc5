import FragmentLint.Proofs.CarrierScan
import FragmentLint.Proofs.Escapes

/-!
# Carriers that are written and found again

A page is written as carriers with other text between them. Escaping takes the angle brackets out
of the carried code, so an opening tag ends where it was written to end, and the first closing tag
behind it is its own. The other text holds no `<`, so no carrier starts in it. Scanning the page
gives the codes that went into it, one fragment for each, trimmed and each on its own line.
-/
namespace FragmentLint

namespace Text

/-- The four letters outside the basic alphabet that fold into it are word characters, and fold
onto letters. -/
theorem isWord_of_mem_foldingIn {c : Char} (h : c.toNat ∈ foldingIn) :
    isWord c = true ∧ (fold c).isAlpha = true := by
  have hall : ∀ n ∈ foldingIn,
      isWord (Char.ofNat n) = true ∧ (fold (Char.ofNat n)).isAlpha = true := by
    decide +kernel
  simpa only [Char.ofNat_toNat] using hall c.toNat h

/-- A character that folds onto a letter of the basic alphabet is a word character. -/
theorem isWord_of_fold {c : Char} (hlow : (fold c).toNat < 0x80) (h : (fold c).isAlpha = true) :
    isWord c = true := by
  have hall : ∀ n < 0x80, (fold (Char.ofNat n)).isAlpha = true →
      isWord (Char.ofNat n) = true := by
    decide
  by_cases hc : c.toNat < 0x80
  · have hbelow := hall c.toNat hc
    rw [Char.ofNat_toNat] at hbelow
    exact hbelow h
  · exact (isWord_of_mem_foldingIn (mem_foldingIn_of_fold (Nat.le_of_not_lt hc) hlow)).1

/-- What folds onto a sign of the basic alphabet is that sign. -/
theorem fold_eq_self_of_sign {c : Char} (hlow : (fold c).toNat < 0x80)
    (h : (fold c).isAlpha = false) : fold c = c := by
  have hall : ∀ n < 0x80, (fold (Char.ofNat n)).isAlpha = false →
      fold (Char.ofNat n) = Char.ofNat n := by
    decide
  by_cases hc : c.toNat < 0x80
  · have hbelow := hall c.toNat hc
    rw [Char.ofNat_toNat] at hbelow
    exact hbelow h
  · have hletter := (isWord_of_mem_foldingIn (mem_foldingIn_of_fold (Nat.le_of_not_lt hc) hlow)).2
    rw [h] at hletter
    cases hletter

theorem eq_lt_of_fold {c : Char} (h : fold '<' = fold c) : c = '<' := by
  have hsign : fold c = '<' := h.symm.trans (by decide)
  rw [← hsign]
  exact (fold_eq_self_of_sign (by rw [hsign]; decide) (by rw [hsign]; decide)).symm

/-- What reads as a tag begins with `<`. -/
theorem afterFolded?_tag_of_ne {c : Char} (hc : '<' ≠ c) (tag t : Text) :
    afterFolded? ('<' :: tag) (c :: t) = none :=
  if_neg fun hfold => hc (eq_lt_of_fold hfold).symm

end Text

namespace Entity

theorem not_mem_encodeBody (t : Text) : '<' ∉ encodeBody t := by
  intro hmem
  obtain ⟨c, -, hc⟩ := List.mem_flatMap.mp hmem
  unfold encodeBodyChar at hc
  split_ifs at hc with hamp hlt hgt
  · exact absurd hc (by decide)
  · exact absurd hc (by decide)
  · exact absurd hc (by decide)
  · exact hlt (List.mem_singleton.mp hc).symm

/-- A text without the escapes behind the ampersand's own comes back as it was. -/
theorem decode_encodeBody_eq_self {t : Text}
    (h : ∀ escape ∈ (["&quot;", "&#39;", "&nbsp;"] : List Text), ¬ escape <:+: t) :
    decode (encodeBody t) = t := by
  have hspelled : (["&quot;", "&#39;", "&nbsp;"] : List Text) = late.map fun e => '&' :: e.1 := by
    decide
  rw [hspelled, List.forall_mem_map] at h
  rw [decode_encodeBody, (readAll_eq_self_iff late_names).mpr h]

end Entity

namespace Carrier

open Text

def openingTag (k : Carrier) (name : Text) : Text :=
  '<' :: k.element ++ " class=\"" ++ name ++ "\">"

def written (k : Carrier) (name code : Text) : Text :=
  k.openingTag name ++ Entity.encodeBody code ++ k.closingTag

def page (k : Carrier) (name : Text) (pieces : List (Text × Text)) : Text :=
  pieces.flatMap fun (gap, code) => gap ++ k.written name code

/-- The words begin and end with a letter of the basic alphabet, and no character of theirs reads
as the first one of `class`. -/
def Lettered (words : List Text) : Prop :=
  ∀ word ∈ words,
    (word.head?.any fun c => (fold c).isAlpha && (fold c).toNat < 0x80) = true ∧
    (word.getLast?.any fun c => (fold c).isAlpha && (fold c).toNat < 0x80) = true ∧
    fold 'c' ∉ word.map fold

theorem lettered_of_mem {family : Family} {k : Carrier} (h : k ∈ family.carriers) :
    Lettered k.keyword.words := by
  have hall : ∀ k ∈ family.carriers, Lettered k.keyword.words := by
    unfold Lettered
    cases family <;> decide
  exact hall k h

section Name

variable {words : List Text} {word name : Text}

theorem ReadsAs.head?_map (h : ReadsAs word name) : name.head?.map fold = word.head?.map fold := by
  rw [← List.head?_map, h, List.head?_map]

theorem ReadsAs.getLast?_map (h : ReadsAs word name) :
    name.getLast?.map fold = word.getLast?.map fold := by
  rw [← List.getLast?_map, h, List.getLast?_map]

/-- A character that folds as a letter of the basic alphabet does is a word character. -/
theorem any_isWord_of_map {o o' : Option Char} (hmap : o.map fold = o'.map fold)
    (h : (o'.any fun c => (fold c).isAlpha && (fold c).toNat < 0x80) = true) :
    o.any isWord = true := by
  cases o' with
  | none => cases h
  | some c' =>
    obtain ⟨c, rfl, hc⟩ := Option.map_eq_some_iff.mp hmap
    rw [Option.any_some, ← hc, Bool.and_eq_true, decide_eq_true_eq] at h
    exact isWord_of_fold h.2 h.1

theorem boundary_quote {o : Option Char} (h : o.any isWord = true) :
    isBoundary (some '"') o = true := by
  rw [isBoundary, h, Option.any_some]
  decide +kernel

/-- A name that reads as one of the words counts between quotes. -/
theorem Lettered.holdsWord (hletters : Lettered words) (hword : word ∈ words)
    (hreads : ReadsAs word name) : HoldsWord words '"' name '"' := by
  obtain ⟨hfirst, hlast, -⟩ := hletters word hword
  have hhead := any_isWord_of_map (ReadsAs.head?_map hreads) hfirst
  have hend := any_isWord_of_map (ReadsAs.getLast?_map hreads) hlast
  refine ⟨word, hword, [], name, [], by simp, hreads, ?_, ?_⟩
  · cases name with
    | nil => cases hhead
    | cons c name => exact boundary_quote hhead
  · cases hgiven : name.getLast? with
    | none => rw [hgiven] at hend; cases hend
    | some c =>
      rw [hgiven] at hend
      rw [BoundaryBetween, List.nil_append, List.getLast?_cons, hgiven, isBoundary_comm]
      exact boundary_quote hend

theorem Lettered.not_mem_behind (hletters : Lettered words) (hword : word ∈ words)
    (hreads : ReadsAs word name) :
    fold 'c' ∉ (("lass=\"" : Text) ++ (name ++ ['"'])).map fold := by
  have hfront : fold 'c' ∉ ("lass=\"" : Text).map fold := by decide
  have hend : fold 'c' ∉ (['"'] : Text).map fold := by decide
  rw [List.map_append, List.map_append, hreads, List.mem_append, List.mem_append]
  simp only [hfront, hend, (hletters word hword).2.2, or_self, not_false_iff]

/-- The attribute of an opening tag with one class name. -/
def onlyClass (hfree : QuoteFree words) (hletters : Lettered words) (hword : word ∈ words)
    (hreads : ReadsAs word name) : Attribute words where
  name := "class"
  blanksBefore := []
  blanksBehind := []
  opening := '"'
  value := name
  closing := '"'
  name_reads := rfl
  blanksBefore_blank := by simp
  blanksBehind_blank := by simp
  opening_quote := by decide
  value_free := fun c hc => by
    by_contra hquote
    exact hfree.not_mem hword hreads (by simpa using hquote) hc
  closing_quote := by decide
  holds := hletters.holdsWord hword hreads

end Name

theorem afterAttribute?_of_fold_ne {words : List Text} {before : Option Char} {c : Char}
    (hc : fold c ≠ fold 'c') (t : Text) : afterAttribute? words before (c :: t) = none := by
  have hnone : afterFolded? "class" (c :: t) = none := if_neg (Ne.symm hc)
  rw [afterAttribute?, hnone]
  exact ite_self none

/-- No class attribute starts in a run to the end of an opening tag, without the first character
of `class`. -/
theorem inTag?_eq_none_of_run (k : Carrier) (before : Option Char) {run : Text}
    (hrun : fold 'c' ∉ run.map fold) (t : Text) :
    k.inTag? before (run ++ '>' :: t) = none := by
  induction run generalizing before with
  | nil =>
    rw [List.nil_append, inTag?, if_pos rfl, afterAttribute?_of_fold_ne (by decide)]
    rfl
  | cons c run ih =>
    obtain ⟨hc, hrun⟩ := not_or.mp (mt List.mem_cons.mpr hrun)
    rw [List.cons_append, inTag?, ih (some c) hrun, afterAttribute?_of_fold_ne (Ne.symm hc),
      ite_self]
    rfl

/-- A text is cut at a `<` behind a run without one. -/
theorem cutAt?_of_run (stop : Text) {run : Text} (hrun : '<' ∉ run) (rest : Text) :
    cutAt? ('<' :: stop) (run ++ ('<' :: stop ++ rest)) = some (run, rest) := by
  induction run with
  | nil =>
    have hhere : afterFolded? ('<' :: stop) ('<' :: (stop ++ rest)) = some rest :=
      afterFolded?_eq_some_iff.mpr ⟨'<' :: stop, rfl, rfl⟩
    rw [List.nil_append, List.cons_append, cutAt?, hhere]
  | cons c run ih =>
    obtain ⟨hc, hrun⟩ := not_or.mp (mt List.mem_cons.mpr hrun)
    rw [List.cons_append, cutAt?, afterFolded?_tag_of_ne hc, ih hrun]
    rfl

/-- A text that starts with a carrier gives its sighting, and the scan goes on behind it. -/
theorem scanBelow_of_match? {k : Carrier} {t body rest : Text} (h : k.match? t = some (body, rest))
    (above : Nat) :
    k.scanBelow above t = ⟨above, trim (Entity.decode body)⟩ ::
      k.scanBelow (above + (newlines t - newlines rest)) rest := by
  cases t with
  | nil => cases h
  | cons c t =>
    rw [scanBelow]
    split
    · rename_i body' rest' hmatch
      obtain ⟨rfl, rfl⟩ := Prod.mk.injEq .. ▸ Option.some.inj (hmatch.symm.trans h)
      rfl
    · rename_i hmatch
      rw [h] at hmatch
      cases hmatch

theorem scanBelow_cons_of_none {k : Carrier} {c : Char} {t : Text}
    (h : k.match? (c :: t) = none) (above : Nat) :
    k.scanBelow above (c :: t) = k.scanBelow (above + newlines [c]) t := by
  rw [scanBelow]
  split
  · rename_i hmatch
    rw [h] at hmatch
    cases hmatch
  · by_cases hc : c = '\n' <;> simp [newlines, hc]

/-- Only its line feeds count of a gap. -/
theorem scanBelow_gap (k : Carrier) {gap : Text} (hgap : '<' ∉ gap) (t : Text) (above : Nat) :
    k.scanBelow above (gap ++ t) = k.scanBelow (above + newlines gap) t := by
  induction gap generalizing above with
  | nil => rfl
  | cons c gap ih =>
    obtain ⟨hc, hgap⟩ := not_or.mp (mt List.mem_cons.mpr hgap)
    have hnone : k.match? (c :: (gap ++ t)) = none := by
      rw [match?, afterFolded?_tag_of_ne hc]
    rw [List.cons_append, scanBelow_cons_of_none hnone, ih hgap, ← List.singleton_append (l := gap),
      newlines_append, Nat.add_assoc]

section Match

variable {family : Family} {k : Carrier} {word name : Text}

/-- What was written is read with its one class attribute. -/
theorem match?_written (hk : k ∈ family.carriers) (hword : word ∈ k.keyword.words)
    (hreads : ReadsAs word name) (code rest : Text) :
    k.match? (k.written name code ++ rest) = some (Entity.encodeBody code, rest) := by
  have hfree := quoteFree_of_mem hk
  have hletters := lettered_of_mem hk
  let a := onlyClass hfree hletters hword hreads
  let behind := '>' :: (Entity.encodeBody code ++ (k.closingTag ++ rest))
  have htext : k.written name code ++ rest =
      ('<' :: k.element) ++ ' ' :: (a.text ++ behind) := by
    simp only [written, openingTag, a, behind, onlyClass, Attribute.text, List.append_assoc,
      List.cons_append, List.nil_append]
    rfl
  have hboundary : isBoundary (some ' ') (some 'c') = true := by decide +kernel
  have hattribute : afterAttribute? k.keyword.words (some ' ') (a.text ++ behind) = some behind :=
    (afterAttribute?_eq_some_iff hfree).mpr ⟨hboundary, a, rfl⟩
  have htail : '>' ∉ ([] : Text) := List.not_mem_nil
  have hbody : k.body? behind = some (Entity.encodeBody code, rest) :=
    (body?_eq_of_run k htail).trans (cutAt?_of_run _ (Entity.not_mem_encodeBody code) rest)
  -- No other class attribute starts further right in the opening tag.
  have hlater : k.inTag? (some 'c') (("lass=\"" : Text) ++ (name ++ ['"']) ++ behind) = none :=
    inTag?_eq_none_of_run k (some 'c') (hletters.not_mem_behind hword hreads) _
  have hhere : k.inTag? (some ' ') (a.text ++ behind) = some (Entity.encodeBody code, rest) := by
    have hcons : a.text ++ behind = 'c' :: (("lass=\"" : Text) ++ (name ++ ['"']) ++ behind) := by
      simp [a, onlyClass, Attribute.text]
    rw [hcons] at hattribute ⊢
    rw [inTag?, hlater, ite_self, Option.none_or, hattribute, Option.bind_some, hbody]
  rw [htext, match?_eq_of_name k rfl, inTag?, if_neg (by decide), hhere, Option.some_or]

theorem scanBelow_written (hk : k ∈ family.carriers) (hword : word ∈ k.keyword.words)
    (hreads : ReadsAs word name) {gap code : Text} (hgap : '<' ∉ gap)
    (hcode : ∀ escape ∈ (["&quot;", "&#39;", "&nbsp;"] : List Text), ¬ escape <:+: code)
    (rest : Text) (above : Nat) :
    k.scanBelow above (gap ++ k.written name code ++ rest) =
      ⟨above + newlines gap, trim code⟩ ::
        k.scanBelow (above + newlines (gap ++ k.written name code)) rest := by
  rw [List.append_assoc, scanBelow_gap k hgap,
    scanBelow_of_match? (match?_written hk hword hreads code rest),
    Entity.decode_encodeBody_eq_self hcode, newlines_append, newlines_append,
    Nat.add_sub_cancel, Nat.add_assoc]

/-- The sightings of a page below a number of line feeds. -/
theorem scanBelow_page (hk : k ∈ family.carriers) (hword : word ∈ k.keyword.words)
    (hreads : ReadsAs word name) (pieces : List (Text × Text)) {last : Text}
    (hgaps : ∀ piece ∈ pieces, '<' ∉ piece.1) (hlast : '<' ∉ last)
    (hcodes : ∀ piece ∈ pieces, ∀ escape ∈ (["&quot;", "&#39;", "&nbsp;"] : List Text),
      ¬ escape <:+: piece.2) (above : Nat) :
    k.scanBelow above (k.page name pieces ++ last) = pieces.mapIdx fun i (gap, code) =>
      ⟨above + newlines (k.page name (pieces.take i) ++ gap), trim code⟩ := by
  induction pieces generalizing above with
  | nil =>
    have hend := scanBelow_gap k hlast [] above
    rw [List.append_nil, scanBelow] at hend
    exact hend
  | cons piece pieces ih =>
    obtain ⟨gap, code⟩ := piece
    obtain ⟨hgap, hgaps⟩ := List.forall_mem_cons.mp hgaps
    obtain ⟨hcode, hcodes⟩ := List.forall_mem_cons.mp hcodes
    have hpage : k.page name ((gap, code) :: pieces) ++ last =
        gap ++ k.written name code ++ (k.page name pieces ++ last) := by
      simp [page]
    rw [hpage, scanBelow_written hk hword hreads hgap hcode, ih hgaps hcodes, List.mapIdx_cons]
    refine congrArg₂ List.cons rfl (congrArg (List.mapIdx · pieces) (funext₂ fun i piece => ?_))
    simp [page, Nat.add_assoc]

/-- A page of carriers gives back what went into it: one fragment for each code, in order, trimmed,
on the line on which its carrier starts. The gaps hold no `<`, and the codes none of the escapes
that are read behind the ampersand's own. -/
theorem scan_page (hk : k ∈ family.carriers) (hword : word ∈ k.keyword.words)
    (hreads : ReadsAs word name) (pieces : List (Text × Text)) (last : Text)
    (hgaps : ∀ piece ∈ pieces, '<' ∉ piece.1) (hlast : '<' ∉ last)
    (hcodes : ∀ piece ∈ pieces, ∀ escape ∈ (["&quot;", "&#39;", "&nbsp;"] : List Text),
      ¬ escape <:+: piece.2) (start : Line) :
    (k.scan (k.page name pieces ++ last)).map (fun s => Mark.fragment ⟨start, s.above, s.code⟩) =
      pieces.mapIdx fun i (gap, code) =>
        ⟨trim code, start.down (newlines (k.page name (pieces.take i) ++ gap))⟩ := by
  rw [scan, scanBelow_page hk hword hreads pieces hgaps hlast hcodes, List.mapIdx_eq_zipIdx_map,
    List.mapIdx_eq_zipIdx_map, List.map_map]
  simp only [Nat.zero_add]
  rfl

/-- Codes with quotes, a tag, an escape and a blank line in them. -/
def noisyPieces : List (Text × Text) :=
  [("one > two\n\n", " a[\"x\"] --> b['y'] &lt; "), ("\n'", "</div>\n\nclass=\"math\"")]

theorem scan_page_noisyPieces :
    ((⟨"div", .plain "math"⟩ : Carrier).scan
        ((⟨"div", .plain "math"⟩ : Carrier).page "Math" noisyPieces ++ "end\n")).map
      (fun s => Mark.fragment ⟨Line.first, s.above, s.code⟩) =
      [⟨"a[\"x\"] --> b['y'] &lt;", ⟨3, by decide⟩⟩,
        ⟨"</div>\n\nclass=\"math\"", ⟨4, by decide⟩⟩] := by
  have hk : (⟨"div", .plain "math"⟩ : Carrier) ∈ Family.carriers .math := by decide
  have hword : ("math" : Text) ∈ (Keyword.plain "math").words := by decide
  have hreads : ReadsAs "math" "Math" := by
    unfold ReadsAs
    decide
  rw [scan_page hk hword hreads noisyPieces "end\n" (by decide) (by decide) (by decide)]
  decide

end Match

end Carrier

end FragmentLint
