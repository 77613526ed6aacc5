import FragmentLint.Proofs.Assembly
import FragmentLint.Proofs.LineAnchors
import FragmentLint.Proofs.SpilledLines
import FragmentLint.Report.Format
import Mathlib.Algebra.GroupWithZero.Nat

/-!
# How many lines a report has

A report with a line for each entry joins the lines of its entries, but nothing in it is escaped: an
entry whose message or context holds line feeds takes up more lines than one. The line feeds that
entries bring with them are counted here. They all come from failures whose message runs over
several lines, and from formulas of several lines whose start is shown; which entries these are is
traced back to what the parsers said.
-/
namespace FragmentLint

namespace Text

theorem length_lines (t : Text) : (lines t).length = newlines t + 1 := by
  induction t with
  | nil => rfl
  | cons c t ih =>
    by_cases hc : c = '\n'
    · simp [lines, newlines, hc, ih]
    · have hcount : newlines (c :: t) = newlines t := List.count_cons_of_ne hc
      rw [lines, if_neg hc, List.length_modifyHead, ih, hcount]

theorem newlines_join (t : Text) (ts : List Text) :
    newlines (join ['\n'] (t :: ts)) = ((t :: ts).map newlines).sum + ts.length := by
  induction ts generalizing t with
  | nil => simp [join]
  | cons u ts ih =>
    have hfeed : newlines ['\n'] = 1 := rfl
    rw [join, newlines_append, newlines_append, ih, hfeed]
    simp only [List.map_cons, List.sum_cons, List.length_cons]
    omega

theorem feed_not_mem_ofInt (n : Int) : '\n' ∉ ofInt n := by
  have hdigits : ∀ n, '\n' ∉ ofNat n := fun n hfeed =>
    absurd (isDigit_of_mem_ofNat hfeed) (by decide)
  cases n with
  | ofNat n => exact hdigits n
  | negSucc n => simp [ofInt, hdigits]

end Text

theorem newlines_joinDetail (message : Text) (hint : Option Text) :
    Text.newlines (joinDetail message hint) =
      Text.newlines message + Text.newlines (hint.getD []) := by
  cases hint with
  | none => rfl
  | some t =>
    cases t with
    | nil => rfl
    | cons c t =>
      have hmark : Text.newlines ". " = 0 := rfl
      rw [joinDetail, Text.newlines_append, Text.newlines_append, hmark]
      rfl

namespace Layout

open Text

/-- The line feeds that an entry brings into a report. -/
def feeds (l : Layout) (e : Entry) : Nat :=
  newlines e.message + newlines (e.hint.getD []) + newlines ((l.context? e).getD [])

theorem feeds_eq_zero_iff {l : Layout} {e : Entry} : l.feeds e = 0 ↔
    '\n' ∉ e.message ∧ '\n' ∉ e.hint.getD [] ∧ '\n' ∉ (l.context? e).getD [] := by
  simp only [feeds, Nat.add_eq_zero_iff, newlines_eq_zero_iff, and_assoc]

theorem newlines_line (l : Layout) {source : Text} (hsource : '\n' ∉ source) {e : Entry}
    (hname : '\n' ∉ e.names.primary) : newlines (l.line source e) = l.feeds e := by
  have hsource := newlines_eq_zero_iff.mpr hsource
  have hname := newlines_eq_zero_iff.mpr hname
  have hline := newlines_eq_zero_iff.mpr (feed_not_mem_ofInt e.line)
  have hmarks : newlines ":" = 0 ∧ newlines " " = 0 ∧ newlines " [Context: " = 0 ∧
      newlines "]" = 0 := ⟨rfl, rfl, rfl, rfl⟩
  unfold line feeds
  cases l.context? e with
  | none =>
    simp only [newlines_append, hsource, hname, hline, hmarks, Entry.detail, newlines_joinDetail]
    simp
  | some context =>
    simp only [newlines_append, hsource, hname, hline, hmarks, Entry.detail, newlines_joinDetail]
    simp

/-- A report of entries with a line for each has as many lines as entries, and one more for each
line feed in an entry. -/
theorem length_lines_report {l : Layout} (hformat : l.format = .simple) {source : Text}
    (hsource : '\n' ∉ source) {entries : List Entry} (hne : entries ≠ [])
    (hnames : ∀ e ∈ entries, '\n' ∉ e.names.primary) :
    (lines (l.report source entries)).length = entries.length + (entries.map l.feeds).sum := by
  have hentry : ∀ e ∈ entries, newlines (l.entry source e) = l.feeds e := by
    intro e he
    rw [entry, hformat]
    exact l.newlines_line hsource (hnames e he)
  have hfeeds : (entries.map (l.entry source)).map newlines = entries.map l.feeds := by
    rw [List.map_map]
    exact List.map_congr_left hentry
  obtain ⟨first, others, rfl⟩ := List.exists_cons_of_ne_nil hne
  have hseparator : l.format.separator = ['\n'] := by rw [hformat]; rfl
  rw [length_lines, report, hseparator, List.map_cons, newlines_join, ← List.map_cons, hfeeds]
  simp only [List.length_map, List.length_cons]
  omega

theorem sum_feeds_eq_zero_iff {l : Layout} {entries : List Entry} :
    (entries.map l.feeds).sum = 0 ↔ ∀ e ∈ entries, l.feeds e = 0 := by
  rw [List.sum_eq_zero_iff_forall_eq_nat]
  exact List.forall_mem_map

theorem feed_mem_of_shown {l : Layout} {t : Text} (h : '\n' ∈ l.shown t) : '\n' ∈ t := by
  unfold shown at h
  split at h
  · split at h
    · obtain hcut | hdots := List.mem_append.mp h
      · exact List.mem_of_mem_take (List.mem_of_mem_drop hcut)
      · exact absurd hdots (by decide)
    · exact h
  · exact h

/-- An entry for a failure of a code breaks its line: the message runs over several lines, or the
start of the code is shown and does. -/
def Breaks (l : Layout) (family : Family) (failure : Failure) (code : Text) : Prop :=
  family.Spills failure ∨
    family.Excerpts failure ∧ '\n' ∈ l.shown (code.take Template.contextLimit)

theorem feed_not_mem_context? {l : Layout} {e : Entry} (h : '\n' ∉ e.context.getD []) :
    '\n' ∉ (l.context? e).getD [] := by
  unfold context?
  cases hcontext : e.context with
  | none => exact List.not_mem_nil
  | some t =>
    rw [hcontext] at h
    rw [Option.bind_some, nonempty?]
    split
    · exact List.not_mem_nil
    · exact fun hfeed => h (feed_mem_of_shown hfeed)

/-- The entry for a failure brings line feeds exactly if the failure breaks its line. -/
theorem feeds_ne_zero_iff (l : Layout) (names : RuleNames) (family : Family) (failure : Failure)
    (code : Text) (start : Line) :
    l.feeds (.ofFinding names ((family.pipeline.diagnosis failure code).1.anchor start
      (family.pipeline.fallback code))) ≠ 0 ↔ l.Breaks family failure code := by
  obtain ⟨hmessage, hhint⟩ := family.quotes_diagnosis failure code
  generalize hentry : Entry.ofFinding names ((family.pipeline.diagnosis failure code).1.anchor start
    (family.pipeline.fallback code)) = e
  have hsaid : '\n' ∈ e.message ↔ family.Spills failure := by rw [← hentry]; exact hmessage
  have hhinted : '\n' ∉ e.hint.getD [] := by rw [← hentry]; exact hhint
  have hcontext : e.context = family.context failure code := by rw [← hentry]; rfl
  have hshown : '\n' ∈ (l.context? e).getD [] ↔
      family.Excerpts failure ∧ '\n' ∈ l.shown (code.take Template.contextLimit) := by
    by_cases hexcerpts : family.Excerpts failure
    · rw [context?, hcontext, Family.context_of_excerpts hexcerpts, and_iff_right hexcerpts]
      by_cases hnil : code.take Template.contextLimit = []
      · rw [hnil]
        exact iff_of_false List.not_mem_nil fun hfeed => List.not_mem_nil (feed_mem_of_shown hfeed)
      · simp [nonempty?, hnil]
    · refine iff_of_false (feed_not_mem_context? ?_) fun h => hexcerpts h.1
      rw [hcontext]
      exact Family.feed_not_mem_context hexcerpts code
  rw [Ne, feeds_eq_zero_iff, Breaks, ← hsaid, ← hshown]
  tauto

/-- An entry that needs no parser brings none. -/
theorem feeds_eq_zero_of_due (l : Layout) (names : RuleNames) {family : Family} {f : Fragment}
    {finding : Finding} (h : Precheck.Due family f (some finding)) :
    l.feeds (.ofFinding names finding) = 0 := by
  rw [feeds_eq_zero_iff]
  cases h with
  | blank =>
    cases family <;> exact ⟨feed_not_mem_literal rfl, feed_not_mem_literal rfl, List.not_mem_nil⟩
  | unopened =>
    refine ⟨feed_not_mem_literal rfl, feed_not_mem_literal rfl, feed_not_mem_context? ?_⟩
    exact fun hfeed => not_mem_firstLine _ (trim_subset _ (List.mem_of_mem_take hfeed))

end Layout

@[simp] theorem Family.family_pipeline (family : Family) : family.pipeline.family = family := by
  cases family <;> rfl

namespace Checker

variable {σ : Type}

/-- Each visit is one of a fragment, in a state of a kind that the parser does not leave. -/
theorem visits?_each {c : Checker σ} {I : σ → Prop}
    (hstep : ∀ {code s answer}, I s → c.check code s = some answer → I answer.state)
    {fragments : List Fragment} {s t : σ} {vs : List (Visit σ)} (hs : I s)
    (h : c.visits? fragments s = some (vs, t)) :
    I t ∧ ∀ v ∈ vs, v.fragment ∈ fragments ∧ I v.before ∧
      c.visit? v.fragment v.before = some v := by
  induction fragments generalizing s vs with
  | nil =>
    simp only [visits?, Option.some.injEq, Prod.mk.injEq] at h
    obtain ⟨rfl, rfl⟩ := h
    exact ⟨hs, by simp⟩
  | cons f fragments ih =>
    simp only [visits?, Option.bind_eq_bind, Option.bind_eq_some_iff, Option.pure_def,
      Option.some.injEq, Prod.mk.injEq] at h
    obtain ⟨v, hv, ⟨us, u⟩, hus, rfl, rfl⟩ := h
    obtain ⟨hfragment, hbefore, -⟩ := visit?_spec hv
    have hafter : I v.after := by
      cases ha : f.asked? with
      | none =>
        rw [visit?_blank _ ha, Option.some.injEq] at hv
        rw [← hv]
        exact hs
      | some code =>
        rw [visit?_asked _ ha] at hv
        obtain ⟨answer, hcheck, rfl⟩ := Option.map_eq_some_iff.mp hv
        exact hstep hs hcheck
    obtain ⟨ht, hothers⟩ := ih hafter hus
    refine ⟨ht, List.forall_mem_cons.mpr ⟨?_, fun w hw => ?_⟩⟩
    · rw [hfragment, hbefore]
      exact ⟨List.mem_cons_self, hs, hv⟩
    · obtain ⟨hmem, hrest⟩ := hothers w hw
      exact ⟨List.mem_cons_of_mem _ hmem, hrest⟩

end Checker

namespace Lint

/-- An entry reports that the parser of a family, asked by a rule about the code of a fragment in a
state behind tasks of the rules, gave a failure. -/
inductive Reports [Host] (site : Site) (rules : List (Rule × Options))
    (tokens : List (Token Line)) :
    Entry → Family → Failure → Text → Prop where
  | mk {r : Rule × Options} {f : Fragment} {s : Shared World} {answer : Checked (Shared World)}
      {failure : Failure} {code : Text} (hr : r ∈ rules)
      (hf : f ∈ r.1.family.extractor.fragments tokens) (hs : Reached site rules s)
      (hasked : f.asked? = some code)
      (hcheck : (r.1.checker site r.2).check code s = some answer)
      (hfails : answer.verdict.Fails failure) :
    Reports site rules tokens
      (.ofFinding r.1.names ((r.1.family.pipeline.diagnosis failure code).1.anchor f.start
        (r.1.family.pipeline.fallback code))) r.1.family failure code

/-- Where an entry comes from. -/
inductive Origin [Host] (site : Site) (rules : List (Rule × Options)) (tokens : List (Token Line)) :
    Entry → Prop where
  /-- It needs no parser: a fragment is blank, or does not open with a word. -/
  | structural {r : Rule × Options} {f : Fragment} {finding : Finding} (hr : r ∈ rules)
      (hf : f ∈ r.1.family.extractor.fragments tokens)
      (hdue : Precheck.Due r.1.family f (some finding)) :
    Origin site rules tokens (.ofFinding r.1.names finding)
  | failed {e : Entry} {family : Family} {failure : Failure} {code : Text}
      (h : Reports site rules tokens e family failure code) : Origin site rules tokens e

section Origins

variable {site : Site} {rules : List (Rule × Options)} {tokens : List (Token Line)}

/-- What the visit of a fragment finds is that it is blank, or what its parser gave. -/
theorem origin_of_visit [Host] {r : Rule × Options} (hr : r ∈ rules) {v : Visit (Shared World)}
    (hf : v.fragment ∈ r.1.family.extractor.fragments tokens) (hs : Reached site rules v.before)
    (hv : (r.1.checker site r.2).visit? v.fragment v.before = some v) {finding : Finding}
    (hfound : v.finding? r.1.family.pipeline r.1.family.parser = some finding) :
    Origin site rules tokens (.ofFinding r.1.names finding) := by
  obtain ⟨f, s, found⟩ := v
  cases ha : f.asked? with
  | none =>
    rw [Checker.visit?_blank _ ha, Option.some.injEq, Visit.mk.injEq] at hv
    obtain ⟨-, -, rfl⟩ := hv
    obtain rfl := Option.some.inj hfound
    rw [Family.family_pipeline]
    exact .structural hr hf (.blank (Fragment.asked?_eq_none_iff.mp ha))
  | some code =>
    rw [Checker.visit?_asked _ ha] at hv
    obtain ⟨answer, hcheck, hvisit⟩ := Option.map_eq_some_iff.mp hv
    obtain ⟨-, -, rfl⟩ := Visit.mk.inj hvisit
    obtain ⟨rfl, -⟩ := Fragment.asked?_eq_some_iff.mp ha
    dsimp only [Visit.finding?, Pipeline.judge] at hfound
    obtain ⟨-, hnone⟩ | ⟨failure, hfails, hfailure⟩ := answer.verdict.failure?_cases
    · rw [hnone] at hfound
      cases hfound
    · rw [hfailure] at hfound
      obtain rfl := Option.some.inj hfound
      exact .failed (Reports.mk (f := f) hr hf hs ha hcheck hfails)

/-- A rule that asks its parser leaves a state behind tasks of the rules. -/
theorem origins_of_asking_run [Host] {r : Rule × Options} (hr : r ∈ rules)
    (hasks : r.1.family.pipeline.asks r.2.mode = true) {s t : Shared World}
    (hs : Reached site rules s) {events : List Event}
    (h : r.1.run r.2 (r.1.checker site r.2) tokens s = some (events, t)) :
    Reached site rules t ∧ ∀ e ∈ r.1.entries events, Origin site rules tokens e := by
  have hstep : ∀ {code s answer}, Reached site rules s →
      (r.1.checker site r.2).check code s = some answer → Reached site rules answer.state :=
    fun hs hcheck => hs.check (t := ⟨r.1, r.2, _⟩) ⟨hr, hasks⟩ hcheck
  -- the events of either way to run, side by side or not, hold what the visits found
  have hout := r.1.family.pipeline.run_outside (r.1.checker site r.2) rfl
    (r.1.family.extractor.fragments tokens) s
  rw [Rule.run, Pipeline.run_of_asks hasks] at h
  rw [h, Option.map_some] at hout
  obtain ⟨⟨vs, u⟩, hvs, heq⟩ := Option.map_eq_some_iff.mp hout.symm
  simp only [Pipeline.outside, Pipeline.outsideOf, Prod.mk.injEq, name_checker] at heq
  obtain ⟨hfound, -, rfl⟩ := heq
  obtain ⟨ht, hvisits⟩ := Checker.visits?_each hstep hs hvs
  refine ⟨ht, fun e he => ?_⟩
  obtain ⟨finding, hfinding, rfl⟩ := List.mem_map.mp he
  rw [← Event.findings, ← hfound] at hfinding
  obtain ⟨v, hv, hfinding⟩ := List.mem_filterMap.mp hfinding
  obtain ⟨hf, hbefore, hvisit⟩ := hvisits v hv
  exact origin_of_visit hr hf hbefore hvisit hfinding

/-- A rule that asks nobody leaves the state as it is. -/
theorem origins_of_basic_run [Host] {r : Rule × Options} (hr : r ∈ rules)
    (hmode : r.2.mode = .basic ∧ r.1.family.pipeline.hasBasic) {s t : Shared World}
    {events : List Event} (h : r.1.run r.2 (r.1.checker site r.2) tokens s = some (events, t)) :
    t = s ∧ ∀ e ∈ r.1.entries events, Origin site rules tokens e := by
  rw [Rule.run, Pipeline.run, if_pos hmode, Option.some.injEq, Prod.mk.injEq] at h
  obtain ⟨rfl, rfl⟩ := h
  refine ⟨rfl, fun e he => ?_⟩
  obtain ⟨finding, hfinding, rfl⟩ := List.mem_map.mp he
  rw [← Event.findings, Pipeline.runBasic, Event.findings_map_report] at hfinding
  obtain ⟨f, hf, hfound⟩ := List.mem_filterMap.mp hfinding
  have hdue := r.1.family.pipeline.basicFinding_due f
  rw [hfound, Family.family_pipeline] at hdue
  exact .structural hr hf hdue

theorem origins_of_run [Host] {r : Rule × Options} (hr : r ∈ rules) {s t : Shared World}
    (hs : Reached site rules s) {events : List Event}
    (h : r.1.run r.2 (r.1.checker site r.2) tokens s = some (events, t)) :
    Reached site rules t ∧ ∀ e ∈ r.1.entries events, Origin site rules tokens e := by
  cases hasks : r.1.family.pipeline.asks r.2.mode with
  | true => exact origins_of_asking_run hr hasks hs h
  | false =>
    obtain ⟨rfl, horigins⟩ := origins_of_basic_run hr (by simpa [Pipeline.asks] using hasks) h
    exact ⟨hs, horigins⟩

theorem origins_of_runRules [Host] {chosen : List (Rule × Options)}
    (hchosen : ∀ r ∈ chosen, r ∈ rules)
    {s t : Shared World} (hs : Reached site rules s) {entries : List Entry} {noted : List Notice}
    (h : runRules site tokens chosen s = some (entries, noted, t)) :
    Reached site rules t ∧ ∀ e ∈ entries, Origin site rules tokens e := by
  induction chosen generalizing s entries noted with
  | nil =>
    simp only [runRules, Option.some.injEq, Prod.mk.injEq] at h
    obtain ⟨rfl, -, rfl⟩ := h
    exact ⟨hs, by simp⟩
  | cons r chosen ih =>
    obtain ⟨events, u, others, more, hrun, hothers, rfl, -⟩ := runRules_cons_eq_some_iff.mp h
    obtain ⟨hr, hrest⟩ := List.forall_mem_cons.mp hchosen
    obtain ⟨hu, hfirst⟩ := origins_of_run hr hs hrun
    obtain ⟨ht, hlast⟩ := ih hrest hu hothers
    exact ⟨ht, List.forall_mem_append.mpr ⟨hfirst, hlast⟩⟩

/-- The results are those of documents, and each of their entries comes from the document. -/
theorem origins_of_runDocuments [Host] {documents : List (Text × Text)} {s t : Shared World}
    (hs : Reached site rules s) {results : List (Text × List Entry)} {noted : List Notice}
    (h : runDocuments site rules documents s = some (results, noted, t)) :
    ∀ x ∈ results, ∃ text, (x.1, text) ∈ documents ∧
      ∀ e ∈ x.2, Origin site rules (Markdown.tokenize text) e := by
  induction documents generalizing s results noted with
  | nil =>
    simp only [runDocuments, Option.some.injEq, Prod.mk.injEq] at h
    obtain ⟨rfl, -⟩ := h
    simp
  | cons d documents ih =>
    obtain ⟨entries, first, u, others, more, hrules, hothers, rfl, -⟩ :=
      runDocuments_cons_eq_some_iff.mp h
    obtain ⟨hu, horigins⟩ := origins_of_runRules (fun _ => id) hs hrules
    refine List.forall_mem_cons.mpr ⟨⟨d.2, List.mem_cons_self, ?_⟩, fun x hx => ?_⟩
    · intro e he
      exact horigins e ((stableSort_sorted entries).perm.mem_iff.mp he)
    · obtain ⟨text, hmem, hrest⟩ := ih hu hothers x hx
      exact ⟨text, List.mem_cons_of_mem _ hmem, hrest⟩

/-- An entry reports a failure that breaks its line. -/
def Broken [Host] (site : Site) (rules : List (Rule × Options)) (tokens : List (Token Line))
    (l : Layout) (e : Entry) : Prop :=
  ∃ family failure code, Reports site rules tokens e family failure code ∧
    l.Breaks family failure code

theorem Origin.feeds_ne_zero_iff [Host] {e : Entry} (h : Origin site rules tokens e) (l : Layout) :
    l.feeds e ≠ 0 ↔ Broken site rules tokens l e := by
  constructor
  · intro hfeeds
    cases h with
    | structural hr hf hdue => exact absurd (l.feeds_eq_zero_of_due _ hdue) hfeeds
    | failed h =>
      refine ⟨_, _, _, h, ?_⟩
      cases h
      exact (l.feeds_ne_zero_iff _ _ _ _ _).mp hfeeds
  · rintro ⟨family, failure, code, hreports, hbreaks⟩
    cases hreports
    exact (l.feeds_ne_zero_iff _ _ _ _ _).mpr hbreaks

/-- An entry has the names of a rule. -/
theorem Origin.names [Host] {e : Entry} (h : Origin site rules tokens e) :
    ∃ r ∈ rules, e.names = r.1.names := by
  cases h with
  | structural hr => exact ⟨_, hr, rfl⟩
  | failed h =>
    obtain ⟨hr, -⟩ := h
    exact ⟨_, hr, rfl⟩

end Origins

/-- The names of rules stand on one line. -/
theorem feed_not_mem_name : ∀ r ∈ Rule.all, '\n' ∉ r.names.primary := by
  decide

/-- A report with a line for each entry has as many lines as the document has entries, and one more
for each line feed that an entry brings with it. The entries that bring any are those which report
a failure that breaks its line, so there is a line for each entry exactly if there are none of
them. -/
theorem lines_of_simple_report [Host] {site : Site} {rules : List Rule} (hrules : rules ⊆ Rule.all)
    {config : Json.Members} {documents : List (Text × Text)} {outcome : Outcome}
    (hlint : lint site rules config documents = some outcome)
    {results : List (Text × List Entry)} (hresults : outcome.results = .ok results) :
    ∃ enabled, Rule.enabled config rules = .ok enabled ∧
      ∀ x ∈ results, x.2 ≠ [] → ∃ text, (x.1, text) ∈ documents ∧
        ∀ (l : Layout) (source : Text), l.format = .simple → '\n' ∉ source →
          (Text.lines (l.report source x.2)).length = x.2.length + (x.2.map l.feeds).sum ∧
          (∀ e ∈ x.2, l.feeds e ≠ 0 ↔ Broken site enabled (Markdown.tokenize text) l e) ∧
          ((Text.lines (l.report source x.2)).length = x.2.length ↔
            ∀ e ∈ x.2, ¬ Broken site enabled (Markdown.tokenize text) l e) := by
  cases henabled : Rule.enabled config rules with
  | error fault =>
    simp only [lint, henabled, Option.some.injEq] at hlint
    rw [← hlint] at hresults
    cases hresults
  | ok enabled =>
    refine ⟨enabled, rfl, fun x hx hne => ?_⟩
    obtain ⟨noted, s, hrun⟩ := runDocuments_of_lint henabled hlint hresults
    obtain ⟨text, hdocument, horigins⟩ :=
      origins_of_runDocuments (reached_start site enabled) hrun x hx
    refine ⟨text, hdocument, fun l source hformat hsource => ?_⟩
    have hnames : ∀ e ∈ x.2, '\n' ∉ e.names.primary := by
      intro e he
      obtain ⟨r, hr, hname⟩ := (horigins e he).names
      rw [hname]
      exact feed_not_mem_name _ (hrules (mem_enabled henabled hr).1)
    have hcount := Layout.length_lines_report hformat hsource hne hnames
    have hfeeds : ∀ e ∈ x.2, l.feeds e ≠ 0 ↔ Broken site enabled (Markdown.tokenize text) l e :=
      fun e he => (horigins e he).feeds_ne_zero_iff l
    refine ⟨hcount, hfeeds, ?_⟩
    have hnone : (Text.lines (l.report source x.2)).length = x.2.length ↔
        (x.2.map l.feeds).sum = 0 := by omega
    rw [hnone, Layout.sum_feeds_eq_zero_iff]
    exact forall₂_congr fun e he => by rw [← hfeeds e he, not_not]

def programlessSite : Site :=
  { settings := (Settings.make? "node" none none).toOption
    launch := fun _ => .error "no such program"
    runScript := fun _ _ => .refused "no such program" }

def twoLineFormula : Text :=
  "```math\nx\ny\n```"

def twoLineEntry : Entry :=
  { names := Rule.formulas.names
    line := 1
    message := "Cannot run Node.js executable 'node': no such program"
    context := some "x\ny"
    code := some .unknownStructuredFailure }

section

open scoped Host.Usual

theorem reported_twoLineFormula :
    bothRules.flatMap (reported (failingVerdict programlessSite pickyFault)
      (Markdown.tokenize twoLineFormula)) = [twoLineEntry] := by
  decide +kernel

theorem lint_twoLineFormula : ∃ outcome,
    lint programlessSite Rule.all [] [("a.md", twoLineFormula)] = some outcome ∧
    outcome.results = .ok [("a.md", [twoLineEntry])] := by
  have hsteady : Steady programlessSite bothRules (failingVerdict programlessSite pickyFault) :=
    steady_of_failing (fun _ _ => rfl) (fun _ _ _ => rfl) bothRules
  obtain ⟨outcome, houtcome, hok, hfault⟩ :=
    lint_of_steady enabled_bothRules hsteady [("a.md", twoLineFormula)]
  have hentries : entriesOf (failingVerdict programlessSite pickyFault) bothRules twoLineFormula =
      [twoLineEntry] := by
    have hperm := (stableSort_sorted [twoLineEntry]).perm
    rw [entriesOf, reported_twoLineFormula]
    exact List.perm_singleton.mp hperm
  refine ⟨outcome, houtcome, ?_⟩
  cases hresults : outcome.results with
  | ok results => rw [hok results hresults, List.map_singleton, hentries]
  | error fault =>
    obtain ⟨-, -, garbled, -, settings, behaviour, -, hlaunch, -⟩ := (hfault fault).mp hresults
    cases hlaunch

/-- The formula comes as it stands behind the reason, and breaks the line of its entry. -/
theorem broken_twoLineEntry : ∃ outcome,
    lint programlessSite Rule.all [] [("a.md", twoLineFormula)] = some outcome ∧
    outcome.results = .ok [("a.md", [twoLineEntry])] ∧
    Broken programlessSite bothRules (Markdown.tokenize twoLineFormula) { format := .simple }
      twoLineEntry := by
  obtain ⟨outcome, hlint, hresults⟩ := lint_twoLineFormula
  obtain ⟨enabled, henabled, hall⟩ := lines_of_simple_report (List.Subset.refl _) hlint hresults
  obtain rfl := Except.ok.inj (henabled.symm.trans enabled_bothRules)
  obtain ⟨text, hdocument, hreport⟩ := hall _ List.mem_cons_self (List.cons_ne_nil _ _)
  obtain rfl := (Prod.mk.inj (List.mem_singleton.mp hdocument)).2
  obtain ⟨-, hfeeds, -⟩ := hreport { format := .simple } "a.md" rfl (by decide)
  exact ⟨outcome, hlint, hresults, (hfeeds _ List.mem_cons_self).mp (by decide)⟩

/-- One entry, and two lines. -/
theorem line_broken_in_report : ∃ outcome,
    lint programlessSite Rule.all [] [("a.md", twoLineFormula)] = some outcome ∧
    outcome.results = .ok [("a.md", [twoLineEntry])] ∧
    Text.lines (Layout.report { format := .simple } "a.md" [twoLineEntry]) =
      ["a.md:1 katex-syntax Cannot run Node.js executable 'node': no such program [Context: x",
        "y]"] := by
  obtain ⟨outcome, hlint, hresults⟩ := lint_twoLineFormula
  exact ⟨outcome, hlint, hresults, by decide +kernel⟩

end

end Lint

end FragmentLint
