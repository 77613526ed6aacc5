import FragmentLint.Proofs.Rendering
import FragmentLint.Report.Format

/-!
# Reports are read back line by line

A report of JSON objects is meant for programs, which cut it at line feeds and read each line by
itself. Whatever the entries say, there is one line for each of them, the line is strict JSON, and
the object that is read from it shows all that the entry holds. An empty hint or context is shown as
none, which is all that is lost.
-/
namespace FragmentLint

/-- Texts without line feeds are the lines of what is made from them with line feeds between
them. -/
theorem Text.lines_join {ts : List Text} (hne : ts ≠ []) (h : ∀ t ∈ ts, '\n' ∉ t) :
    lines (join ['\n'] ts) = ts := by
  induction ts with
  | nil => exact absurd rfl hne
  | cons t ts ih =>
    obtain ⟨ht, hts⟩ := List.forall_mem_cons.mp h
    cases ts with
    | nil =>
      have hended := lines_append_feed ht []
      rw [lines_concat_feed] at hended
      exact List.append_cancel_right (hended : lines t ++ [[]] = [t] ++ [[]])
    | cons u ts =>
      rw [join, List.append_assoc, List.singleton_append, lines_append_feed ht,
        ih (by simp) hts]

namespace Json

/-- A name is looked up in the members that come first, then in the others. -/
theorem Members.get?_append (ms others : Members) (key : Text) :
    Members.get? (ms ++ others) key = (Members.get? ms key).or (Members.get? others key) := by
  induction ms with
  | nil => rfl
  | cons m ms ih =>
    obtain ⟨name, v⟩ := m
    by_cases h : name = key
    · simp [Members.get?, h]
    · simpa [Members.get?, h] using ih

theorem depthItems_le_iff {items : List Json} {n : Nat} :
    depthItems items ≤ n ↔ ∀ item ∈ items, item.depth ≤ n := by
  induction items with
  | nil => simp [depthItems]
  | cons item items ih => rw [depthItems, Nat.max_le, ih, List.forall_mem_cons]

theorem depthMembers_le_iff {members : Members} {n : Nat} :
    depthMembers members ≤ n ↔ ∀ m ∈ members, m.2.depth ≤ n := by
  induction members with
  | nil => simp [depthMembers]
  | cons m members ih => rw [depthMembers, Nat.max_le, ih, List.forall_mem_cons]

end Json

namespace Layout

theorem get?_member? (name : Text) (value : Option Text) (key : Text) :
    Json.Members.get? (member? name value) key = if name = key then value.map .str else none := by
  cases value <;> simp [member?, Json.Members.get?]

/-- The names under which an entry may have values, in order. -/
def memberNames : List Text :=
  ["source", "line", "rule", "rule_names", "detail", "message", "hint", "code", "context"]

theorem names_member? (name : Text) (value : Option Text) :
    ((member? name value).map Prod.fst).Sublist [name] := by
  cases value <;> simp [member?]

theorem names_members (l : Layout) (source : Text) (e : Entry) :
    ((l.members source e).map Prod.fst).Sublist memberNames := by
  simp only [members, List.map_append]
  exact (((List.Sublist.refl (memberNames.take 6)).append (names_member? _ _)).append
    (names_member? _ _)).append (names_member? _ _)

theorem mem_member? {name : Text} {value : Option Text} {m : Text × Json}
    (h : m ∈ member? name value) : ∃ t, m.2 = .str t := by
  cases value with
  | none => cases h
  | some t => exact ⟨t, by rw [List.mem_singleton.mp h]⟩

/-- The values of an entry are texts, a list of texts and the number of the line. -/
theorem members_cases {l : Layout} {source : Text} {e : Entry} {m : Text × Json}
    (h : m ∈ l.members source e) :
    (∃ t, m.2 = .str t) ∨ (∃ ts : List Text, m.2 = .arr (ts.map .str)) ∨
      m.2 = .num (.int e.line) := by
  simp only [members, List.mem_append, List.mem_cons, List.not_mem_nil, or_false] at h
  obtain (((rfl | rfl | rfl | rfl | rfl | rfl) | h) | h) | h := h
  · exact .inl ⟨_, rfl⟩
  · exact .inr (.inr rfl)
  · exact .inl ⟨_, rfl⟩
  · exact .inr (.inl ⟨_, rfl⟩)
  · exact .inl ⟨_, rfl⟩
  · exact .inl ⟨_, rfl⟩
  · exact .inl (mem_member? h)
  · exact .inl (mem_member? h)
  · exact .inl (mem_member? h)

theorem writable_members {l : Layout} {source : Text} {e : Entry}
    (h : (Text.ofNat e.line.natAbs).length ≤ Text.digitLimit) :
    (Json.obj (l.members source e)).Writable := by
  refine Json.writableMembers_iff.mpr ⟨(names_members l source e).nodup (by decide), ?_⟩
  rintro ⟨name, v⟩ hm
  obtain ⟨t, rfl⟩ | ⟨ts, rfl⟩ | rfl := members_cases hm
  · trivial
  · refine Json.writableItems_iff.mpr ?_
    intro item hitem
    obtain ⟨t, -, rfl⟩ := List.mem_map.mp hitem
    trivial
  · exact h

theorem depth_members (l : Layout) (source : Text) (e : Entry) :
    (Json.obj (l.members source e)).depth ≤ 2 := by
  refine Nat.succ_le_succ (Json.depthMembers_le_iff.mpr ?_)
  rintro ⟨name, v⟩ hm
  obtain ⟨t, rfl⟩ | ⟨ts, rfl⟩ | rfl := members_cases hm
  · exact Nat.zero_le _
  · refine Nat.succ_le_succ (Json.depthItems_le_iff.mpr ?_)
    intro item hitem
    obtain ⟨t, -, rfl⟩ := List.mem_map.mp hitem
    exact Nat.le_refl _
  · exact Nat.zero_le _

/-- An object shows an entry of a source: it has just these members, and from each one the field of
the entry is recovered. -/
structure Shows (source : Text) (e : Entry) (object : Json.Members) : Prop where
  source : object.get? "source" = some (.str source)
  line : object.get? "line" = some (.num (.int e.line))
  rule : object.get? "rule" = some (.str e.names.primary)
  ruleNames : object.get? "rule_names" = some (.arr (e.names.toList.map .str))
  message : object.get? "message" = some (.str e.message)
  detail : object.get? "detail" = some (.str e.detail)
  /-- The hint is there if it is not empty. -/
  hint : object.get? "hint" = (e.hint.bind Text.nonempty?).map .str
  /-- The code is there if the entry has one. -/
  code : object.get? "code" = e.code.map fun c => .str c.name
  /-- The context is there if it is not empty. -/
  context : object.get? "context" = (e.context.bind Text.nonempty?).map .str
  others : (object.map Prod.fst).Sublist memberNames

theorem context?_of_uncut {l : Layout} (hlimit : l.limit = none) (e : Entry) :
    l.context? e = e.context.bind Text.nonempty? := by
  have hshown : l.shown = id := by
    funext t
    simp [shown, hlimit]
  rw [context?, hshown, Option.map_id, id]

theorem shows_members {l : Layout} (hlimit : l.limit = none) (source : Text) (e : Entry) :
    Shows source e (l.members source e) := by
  have hget : ∀ key, Json.Members.get? (l.members source e) key = _ := fun key => by
    rw [members, Json.Members.get?_append, Json.Members.get?_append, Json.Members.get?_append,
      get?_member?, get?_member?, get?_member?, context?_of_uncut hlimit, Option.map_map]
  exact
    { source := by rw [hget]; rfl
      line := by rw [hget]; rfl
      rule := by rw [hget]; rfl
      ruleNames := by rw [hget]; rfl
      message := by rw [hget]; rfl
      detail := by rw [hget]; rfl
      hint := by rw [hget]; simp [Json.Members.get?]
      code := by rw [hget]; simp [Json.Members.get?, Function.comp_def]
      context := by rw [hget]; simp [Json.Members.get?]
      others := names_members l source e }

/-- An entry is read back from the line that shows it. -/
theorem read_entry [Host] {l : Layout} (hformat : l.format = .json) (source : Text) {e : Entry}
    (h : (Text.ofNat e.line.natAbs).length ≤ Text.digitLimit) :
    Json.Printed .report (.obj (l.members source e)) (l.entry source e) ∧
      Json.read (l.entry source e) = .ok (.obj (l.members source e)) := by
  have hprinted : Json.Printed .report (.obj (l.members source e)) (l.entry source e) := by
    rw [entry, hformat]
    exact Json.printed_render .report _ (writable_members h)
  have hdepth : (Json.obj (l.members source e)).depth ≤ Host.nestingLimit :=
    (depth_members l source e).trans Host.two_le_nestingLimit
  exact ⟨hprinted, (Json.read_printed Json.Style.spaced_report hprinted).1 hdepth⟩

/-- A report of JSON objects that is cut at line feeds has one line for each entry, in their order.
Each line is strict JSON, and the object that is read from it shows the entry. -/
theorem lines_report [Host] {l : Layout} (hformat : l.format = .json) (hlimit : l.limit = none)
    (source : Text) {entries : List Entry} (hne : entries ≠ [])
    (hlines : ∀ e ∈ entries, (Text.ofNat e.line.natAbs).length ≤ Text.digitLimit) :
    List.Forall₂ (fun e line => ∃ object, Json.Printed .report (.obj object) line ∧
        Json.read line = .ok (.obj object) ∧ Shows source e object)
      entries (Text.lines (l.report source entries)) := by
  have hfeed : ∀ t ∈ entries.map (l.entry source), '\n' ∉ t := by
    intro t ht
    obtain ⟨e, he, rfl⟩ := List.mem_map.mp ht
    exact Json.feed_not_mem_printed (read_entry hformat source (hlines e he)).1
  have hreport : Text.lines (l.report source entries) = entries.map (l.entry source) := by
    rw [report, hformat]
    exact Text.lines_join (by simpa using hne) hfeed
  rw [hreport, List.forall₂_map_right_iff, List.forall₂_same]
  intro e he
  obtain ⟨hprinted, hread⟩ := read_entry hformat source (hlines e he)
  exact ⟨_, hprinted, hread, shows_members hlimit source e⟩

/-- Entries whose texts hold quotes, backslashes, line ends and other characters that have to be
escaped or end a line elsewhere. -/
def awkwardEntries : List Entry :=
  [{ names := ⟨"katex-syntax", ["math-syntax"]⟩, line := -3, message := "a \"b\"\n\\c\x00\u2028",
     hint := some "", context := some "\r\n\t\x7f\u00e9", code := some .unknownFailureFormat },
   { names := ⟨"\"", []⟩, line := 0, message := "", hint := some "\x7d\n\x7b", context := some "" }]

section

open scoped Host.Usual

theorem lines_report_awkward :
    awkwardEntries ≠ [] ∧
    (∀ e ∈ awkwardEntries, (Text.ofNat e.line.natAbs).length ≤ Text.digitLimit) ∧
    List.Forall₂ (fun e line => ∃ object, Json.Printed .report (.obj object) line ∧
        Json.read line = .ok (.obj object) ∧ Shows "a\n.md" e object)
      awkwardEntries
      (Text.lines ((⟨.json, false, none⟩ : Layout).report "a\n.md" awkwardEntries)) := by
  have hlines : ∀ e ∈ awkwardEntries, (Text.ofNat e.line.natAbs).length ≤ Text.digitLimit := by
    simp [awkwardEntries, Text.ofNat, Nat.toDigits_of_lt_base, Text.digitLimit]
  exact ⟨by simp [awkwardEntries], hlines,
    lines_report rfl rfl "a\n.md" (by simp [awkwardEntries]) hlines⟩

end

end Layout
end FragmentLint
