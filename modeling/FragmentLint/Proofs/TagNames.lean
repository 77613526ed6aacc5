import FragmentLint.Proofs.CarrierRoundTrip

/-!
# Names of the tags that carry

A carrier is looked for by `<` and the name of its element. The scan asks for no end of the name,
and what stands between the name and the class attribute may be anything without `>`. So the
tag of a carrier has a name that begins with the element's name, and a tag whose name goes on
behind it carries just as the element's own tag does.
-/
namespace FragmentLint.Carrier

open Text

/-- Whether a character goes on with the name of a tag: a letter, a digit or a hyphen. -/
def continuesName (c : Char) : Bool :=
  c = '-' || (isWord c && c ≠ '_')

/-- A text starts with an opening tag of a name, case aside: behind `<` stands the name, and
nothing that goes on with it. -/
def TagNamed (name t : Text) : Prop :=
  ∃ piece rest, t = '<' :: (piece ++ rest) ∧ ReadsAs name piece ∧
    rest.head?.any continuesName = false

theorem ReadsAs.append {name piece name' piece' : Text} (h : ReadsAs name piece)
    (h' : ReadsAs name' piece') : ReadsAs (name ++ name') (piece ++ piece') := by
  rw [ReadsAs, List.map_append, List.map_append, h, h']

section Name

variable {name piece rest : Text}

theorem tagNamed_iff_of_readsAs (hreads : ReadsAs name piece) :
    TagNamed name ('<' :: (piece ++ rest)) ↔ rest.head?.any continuesName = false := by
  constructor
  · rintro ⟨piece', rest', ht, hreads', hend⟩
    obtain ⟨-, rfl⟩ := List.append_inj (List.cons_eq_cons.mp ht).2
      (hreads.length_eq.trans hreads'.length_eq.symm)
    exact hend
  · intro hend
    exact ⟨piece, rest, rfl, hreads, hend⟩

/-- A tag that begins with a name has that name and what goes on with it. -/
theorem exists_tagNamed (hreads : ReadsAs name piece) (rest : Text) :
    ∃ extra, (∀ c ∈ extra, continuesName c = true) ∧
      TagNamed (name ++ extra) ('<' :: (piece ++ rest)) ∧
      (TagNamed name ('<' :: (piece ++ rest)) ↔ extra = []) := by
  have hsplit := List.takeWhile_append_dropWhile (p := continuesName) (l := rest)
  refine ⟨rest.takeWhile continuesName, fun c => List.mem_takeWhile_imp,
    ⟨piece ++ rest.takeWhile continuesName, rest.dropWhile continuesName, ?_, ?_, ?_⟩, ?_⟩
  · rw [List.append_assoc, hsplit]
  · exact ReadsAs.append hreads rfl
  · have hnot := List.head?_dropWhile_not continuesName rest
    cases hrest : (rest.dropWhile continuesName).head? with
    | none => rfl
    | some c => rwa [hrest] at hnot
  · rw [tagNamed_iff_of_readsAs hreads]
    cases rest with
    | nil => simp
    | cons c rest => cases hc : continuesName c <;> simp [hc]

end Name

/-- What starts a carrier is an opening tag whose name begins with the element's name. -/
theorem Starts.exists_tagNamed {k : Carrier} {t : Text} (h : k.Starts t) :
    ∃ extra, (∀ c ∈ extra, continuesName c = true) ∧ TagNamed (k.element ++ extra) t ∧
      (TagNamed k.element t ↔ extra = []) := by
  obtain ⟨head, behind, htext, -⟩ := h
  obtain ⟨u, rfl⟩ := head.exists_rest htext
  have hreads := head.name_reads
  cases hname : head.name with
  | nil =>
    rw [hname] at hreads
    cases hreads
  | cons c piece =>
    rw [hname] at hreads
    obtain ⟨hc, hpiece⟩ := List.cons_eq_cons.mp hreads
    obtain rfl := eq_lt_of_fold hc.symm
    exact Carrier.exists_tagNamed hpiece u

theorem Scanned.starts {k : Carrier} {html : Text} {place : Nat} {found : List (Nat × Text)}
    (h : Scanned k html place found) : ∀ e ∈ found, k.Starts (html.drop e.1) := by
  induction h with
  | done => simp
  | found _ _ hcarries _ ih => exact List.forall_mem_cons.mpr ⟨hcarries.starts, ih⟩

/-- The attribute that counts is found again behind a longer run. -/
theorem inTag?_run {k : Carrier} {before : Option Char} {run t : Text} {r : Text × Text}
    (hrun : '>' ∉ run) (h : k.inTag? (lastOf before run) t = some r) :
    k.inTag? before (run ++ t) = some r := by
  induction run generalizing before with
  | nil => exact h
  | cons c run ih =>
    obtain ⟨hc, hrun⟩ := not_or.mp (mt List.mem_cons.mpr hrun)
    rw [lastOf_cons] at h
    rw [List.cons_append, inTag?, if_neg (Ne.symm hc), ih hrun h, Option.some_or]

/-- Right behind a word character no class attribute starts, so that character may be another. -/
theorem inTag?_of_word {k : Carrier} {before before' : Option Char} {t : Text} {r : Text × Text}
    (hword : before.any isWord = true) (h : k.inTag? before t = some r) :
    k.inTag? before' t = some r := by
  cases t with
  | nil => cases h
  | cons c t =>
    have hnone : afterAttribute? k.keyword.words before (c :: t) = none := by
      by_cases hc : fold c = fold 'c'
      · have hletter : isWord c = true :=
          isWord_of_fold (by rw [hc]; decide) (by rw [hc]; decide)
        have hinside : isBoundary before (some c) = false := by
          rw [isBoundary, hword, Option.any_some, hletter]
          rfl
        rw [afterAttribute?, List.head?_cons, hinside]
        rfl
      · exact afterAttribute?_of_fold_ne hc t
    rw [inTag?, hnone, Option.bind_none, Option.or_none] at h
    rw [inTag?, h, Option.some_or]

/-- The names of the elements end with a letter. -/
theorem any_isWord_of_mem {family : Family} {k : Carrier} (hk : k ∈ family.carriers)
    {name : Text} (hreads : ReadsAs ('<' :: k.element) name) :
    name.getLast?.any isWord = true := by
  have hall : ∀ k ∈ family.carriers, (('<' :: k.element).getLast?.any fun c =>
      (fold c).isAlpha && (fold c).toNat < 0x80) = true := by
    cases family <;> decide
  exact any_isWord_of_map (ReadsAs.getLast?_map hreads) (hall k hk)

/-- What goes on with a name neither ends a tag nor a line. -/
theorem not_mem_of_continuesName {extra : Text} (h : ∀ c ∈ extra, continuesName c = true) :
    '>' ∉ extra ∧ '\n' ∉ extra := by
  have hends : continuesName '>' = false ∧ continuesName '\n' = false := by decide +kernel
  exact ⟨fun hmem => by simp [h _ hmem] at hends, fun hmem => by simp [h _ hmem] at hends⟩

/-- A tag whose name goes on carries what the element's own tag carries. -/
theorem match?_longer {family : Family} {k : Carrier} (hk : k ∈ family.carriers)
    {name extra u : Text} (hreads : ReadsAs ('<' :: k.element) name)
    (hextra : ∀ c ∈ extra, continuesName c = true) {r : Text × Text}
    (h : k.match? (name ++ u) = some r) : k.match? (name ++ extra ++ u) = some r := by
  rw [match?_eq_of_name k hreads] at h
  rw [List.append_assoc, match?_eq_of_name k hreads]
  exact inTag?_run (not_mem_of_continuesName hextra).1
    (inTag?_of_word (any_isWord_of_mem hk hreads) h)

/-- The scan does not see the end of a tag's name. -/
theorem scan_longer {family : Family} {k : Carrier} (hk : k ∈ family.carriers)
    {name extra u : Text} (hreads : ReadsAs ('<' :: k.element) name)
    (hextra : ∀ c ∈ extra, continuesName c = true) (hstarts : k.Starts (name ++ u)) :
    k.scan (name ++ extra ++ u) = k.scan (name ++ u) := by
  cases hmatch : k.match? (name ++ u) with
  | none => exact absurd hstarts (not_starts_of_match? (quoteFree_of_mem hk) hmatch)
  | some r =>
    obtain ⟨body, rest⟩ := r
    have hlonger := match?_longer hk hreads hextra hmatch
    have hfeeds : newlines extra = 0 :=
      List.count_eq_zero.mpr (not_mem_of_continuesName hextra).2
    have hsame : newlines (name ++ extra ++ u) = newlines (name ++ u) := by
      rw [newlines_append, newlines_append, hfeeds, Nat.add_zero, ← newlines_append]
    rw [scan, scan, scanBelow_of_match? hlonger, scanBelow_of_match? hmatch, hsame]

/-- Each fragment of a scan starts at a tag whose name is the element's name and what goes on with
it, so at a tag of the element exactly where nothing does. Whatever goes on with the name, the tag
is scanned as if it were the element's own. -/
theorem scan_names {family : Family} {k : Carrier} (hk : k ∈ family.carriers) (html : Text)
    (start : Line) :
    (∃ found, Scanned k html 0 found ∧
      (k.scan html).map (fun s => Mark.fragment ⟨start, s.above, s.code⟩) =
        found.map (fun e =>
          ⟨trim (Entity.decode e.2), start.down (newlines (html.take e.1))⟩) ∧
      ∀ e ∈ found, ∃ extra, (∀ c ∈ extra, continuesName c = true) ∧
        TagNamed (k.element ++ extra) (html.drop e.1) ∧
        (TagNamed k.element (html.drop e.1) ↔ extra = [])) ∧
    ∀ name extra u, ReadsAs ('<' :: k.element) name → (∀ c ∈ extra, continuesName c = true) →
      k.Starts (name ++ u) → k.scan (name ++ extra ++ u) = k.scan (name ++ u) := by
  refine ⟨?_, fun name extra u hreads hextra => scan_longer hk hreads hextra⟩
  obtain ⟨found, hfound, hmap⟩ := scanned_scanBelow (quoteFree_of_mem hk) [] html
  rw [List.nil_append] at hfound hmap
  refine ⟨found, hfound, ?_, fun e he => (hfound.starts e he).exists_tagNamed⟩
  rw [scan, show (0 : Nat) = newlines [] from rfl, hmap, List.map_map]
  rfl

def preformatted : Carrier :=
  ⟨"pre", .plain "mermaid"⟩

/-- A tag of a longer name than the element's, with a closing tag of the element. -/
def prettyTag : Text :=
  "<pretty class=\"mermaid\">x</pre>"

theorem preformatted_mem : preformatted ∈ Family.carriers .mermaid := by
  decide

theorem match?_prettyTag : preformatted.match? prettyTag = some (("x" : Text), []) := by
  decide +kernel

theorem scan_prettyTag : preformatted.scan prettyTag = [⟨0, "x"⟩] := by
  have hcode : Entity.decode "x" = "x" :=
    Entity.decode_encodeBody_eq_self (t := "x") (by decide)
  rw [scan, scanBelow_of_match? match?_prettyTag, scanBelow, hcode]
  rfl

theorem scan_names_prettyTag :
    ∃ found, Scanned preformatted prettyTag 0 found ∧
      found.map (fun e => (⟨trim (Entity.decode e.2),
        Line.first.down (newlines (prettyTag.take e.1))⟩ : Fragment)) = [⟨"x", Line.first⟩] ∧
      ∀ e ∈ found, ∃ extra, TagNamed (("pre" : Text) ++ extra) (prettyTag.drop e.1) := by
  obtain ⟨⟨found, hfound, hmap, hnames⟩, -⟩ := scan_names preformatted_mem prettyTag Line.first
  rw [scan_prettyTag] at hmap
  refine ⟨found, hfound, hmap.symm, fun e he => ?_⟩
  obtain ⟨extra, -, hnamed, -⟩ := hnames e he
  exact ⟨extra, hnamed⟩

/-- Not every carrier that is found is a tag of its element. -/
theorem prettyTag_scanned :
    ¬ ∀ (family : Family) (k : Carrier), k ∈ family.carriers → ∀ html found,
      Scanned k html 0 found → ∀ e ∈ found, TagNamed k.element (html.drop e.1) := by
  intro hnamed
  have hfound : Scanned preformatted prettyTag 0 [(0, "x")] :=
    .found (Nat.le_refl 0) (fun j _ hj => absurd hj (Nat.not_lt_zero j))
      (carries_of_match? (quoteFree_of_mem preformatted_mem) match?_prettyTag)
      (.done fun i hi => by rw [List.drop_eq_nil_of_le hi]; exact not_starts_nil)
  have hpre : TagNamed "pre" ('<' :: (("pre" : Text) ++ "tty class=\"mermaid\">x</pre>")) :=
    hnamed .mermaid _ preformatted_mem prettyTag _ hfound (0, "x") (List.mem_singleton_self _)
  have hend := (tagNamed_iff_of_readsAs rfl).mp hpre
  exact absurd hend (by decide)

end FragmentLint.Carrier
