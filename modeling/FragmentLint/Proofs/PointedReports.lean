import FragmentLint.Proofs.FirstPlaces
import FragmentLint.Proofs.ReportLines
import Mathlib.Data.List.Nodup

/-!
# Reports that point into the source

A generated parser points at the place where it failed: it names the line, echoes a piece of it, and
draws a caret below the place. Behind that it may say what it expected there and which token it got.
Of such a report the line and the token are read back, whatever the excerpt and the expectations
are, as long as neither of them looks like what the search for the token goes by. The excerpt itself
is read back exactly if it holds no caret, since a caret is all that tells the line below it.
-/
namespace FragmentLint

namespace Text

theorem mem_trim {t : Text} {c : Char} (hc : c ∈ t) (hblank : isBlank c = false) : c ∈ trim t := by
  have hdrop : ∀ u : Text, c ∈ u → c ∈ u.dropWhile isBlank := by
    intro u hu
    rw [← List.takeWhile_append_dropWhile (p := isBlank) (l := u), List.mem_append] at hu
    refine hu.resolve_left fun htake => ?_
    rw [List.mem_takeWhile_imp htake] at hblank
    cases hblank
  rw [trim, trimEnd, trimStart, List.mem_reverse]
  exact hdrop _ (List.mem_reverse.mpr (hdrop t hc))

theorem lines_eq_singleton {t : Text} (h : '\n' ∉ t) : lines t = [t] :=
  lines_join (List.cons_ne_nil t []) (List.forall_mem_singleton.mpr h)

end Text

namespace Shape

open Text

/-- A place of the source to which a parser points. -/
structure Pointer where
  /-- The number of the line. -/
  number : Nat
  /-- The piece of the source that is echoed. -/
  excerpt : Text
  /-- How far the caret stands from the margin. -/
  dashes : Nat
  excerpt_single : '\n' ∉ excerpt

namespace Pointer

def header (p : Pointer) : Text :=
  "Parse error on line " ++ ofNat p.number ++ ":"

def caretLine (p : Pointer) : Text :=
  List.replicate p.dashes '-' ++ ['^']

/-- The three lines that point to the place. -/
def text (p : Pointer) : Text :=
  p.header ++ '\n' :: (p.excerpt ++ '\n' :: p.caretLine)

theorem not_mem_header (p : Pointer) {c : Char} (hwords : c ∉ ("Parse error on line " : Text))
    (hcolon : c ∉ (":" : Text)) (hdigit : c.isDigit = false) : c ∉ p.header := by
  have hnumber : c ∉ ofNat p.number := by
    intro h
    rw [isDigit_of_mem_ofNat h] at hdigit
    cases hdigit
  unfold header
  simp only [List.mem_append, not_or]
  exact ⟨⟨hwords, hnumber⟩, hcolon⟩

theorem feed_not_mem_header (p : Pointer) : '\n' ∉ p.header :=
  p.not_mem_header (by decide) (by decide) (by decide)

theorem caret_not_mem_header (p : Pointer) : '^' ∉ p.header :=
  p.not_mem_header (by decide) (by decide) (by decide)

theorem not_mem_caretLine (p : Pointer) {c : Char} (hdash : c ≠ '-') (hcaret : c ≠ '^') :
    c ∉ p.caretLine := by
  simp [caretLine, List.mem_replicate, hdash, hcaret]

theorem caret_mem_caretLine (p : Pointer) : '^' ∈ p.caretLine := by
  simp [caretLine]

theorem lines_text (p : Pointer) (following : Text) :
    lines (p.text ++ '\n' :: following) =
      p.header :: p.excerpt :: p.caretLine :: lines following := by
  have hcaret : '\n' ∉ p.caretLine := p.not_mem_caretLine (by decide) (by decide)
  rw [text, List.append_assoc, List.cons_append, List.append_assoc, List.cons_append,
    lines_append_feed p.feed_not_mem_header, lines_append_feed p.excerpt_single,
    lines_append_feed hcaret]

theorem head?_header (p : Pointer) : p.header.head? = some 'P' := by
  have hwords : ("Parse error on line " : Text).head? = some 'P' := by decide
  unfold header
  rw [List.head?_append, List.head?_append, hwords]
  rfl

theorem getLast?_header (p : Pointer) : p.header.getLast? = some ':' := by
  have hcolon : (":" : Text).getLast? = some ':' := by decide
  unfold header
  rw [List.getLast?_append, hcolon]
  rfl

theorem trim_header (p : Pointer) : trim p.header = p.header := by
  refine trim_of_ends (fun c hc => ?_) fun c hc => ?_
  · obtain rfl := Option.some.inj (p.head?_header.symm.trans hc)
    decide
  · obtain rfl := Option.some.inj (p.getLast?_header.symm.trans hc)
    decide

end Pointer

/-- An echoed line without the three dots that may stand for what was left out in front of it. -/
def withoutDots (line : Text) : Text :=
  if ("..." : Text) <+: line then line.drop 3 else line

theorem getD_after?_dots (line : Text) : (after? "..." line).getD line = withoutDots line := by
  unfold withoutDots
  by_cases h : ("..." : Text) <+: line
  · obtain ⟨rest, rfl⟩ := h
    rw [after?_eq_some_iff.mpr rfl, if_pos (List.prefix_append _ _)]
    rfl
  · rw [after?_eq_none h, if_neg h]
    rfl

theorem caret_mem_withoutDots {line : Text} (h : '^' ∈ line) : '^' ∈ withoutDots line := by
  unfold withoutDots
  split
  · rename_i hdots
    obtain ⟨rest, rfl⟩ := hdots
    exact (List.mem_append.mp h).resolve_left (by decide)
  · exact h

theorem Pointer.withoutDots_header (p : Pointer) : withoutDots p.header = p.header := by
  refine if_neg ?_
  rintro ⟨rest, hrest⟩
  have hdot : ("..." ++ rest : Text).head? = some '.' := by
    rw [List.head?_append, show ("..." : Text).head? = some '.' by decide]
    rfl
  rw [hrest, p.head?_header] at hdot
  exact absurd hdot (by decide)

theorem excerpt?_of_caret {above line : Text} (habove : '^' ∉ above) (hline : '^' ∈ line)
    (rest : List Text) :
    excerpt? (above :: line :: rest) = some (trim (withoutDots above)) := by
  rw [excerpt?, if_neg habove, if_pos hline, getD_after?_dots]

theorem excerpt?_of_no_caret {above line : Text} (habove : '^' ∉ above) (hline : '^' ∉ line)
    (rest : List Text) : excerpt? (above :: line :: rest) = excerpt? (line :: rest) := by
  rw [excerpt?, if_neg habove, if_neg hline]

/-- The line above the first caret is the excerpt, unless the excerpt holds a caret itself: then it
is the line that names the line. -/
theorem excerpt?_pointer (p : Pointer) (following : Text) :
    excerpt? (lines (p.text ++ '\n' :: following)) =
      some (if '^' ∈ p.excerpt then p.header else trim (withoutDots p.excerpt)) := by
  rw [p.lines_text]
  by_cases h : '^' ∈ p.excerpt
  · rw [if_pos h, excerpt?_of_caret p.caret_not_mem_header h, p.withoutDots_header, p.trim_header]
  · rw [if_neg h, excerpt?_of_no_caret p.caret_not_mem_header h,
      excerpt?_of_caret h p.caret_mem_caretLine]

/-- The excerpt is read back from the lines of a report exactly if it holds no caret. -/
theorem excerpt_read_back (p : Pointer) (following : Text) :
    excerpt? (lines (p.text ++ '\n' :: following)) =
        some (if '^' ∈ p.excerpt then p.header else trim (withoutDots p.excerpt)) ∧
      (excerpt? (lines (p.text ++ '\n' :: following)) = some (trim (withoutDots p.excerpt)) ↔
        '^' ∉ p.excerpt) := by
  have hread := excerpt?_pointer p following
  refine ⟨hread, ?_⟩
  rw [hread]
  by_cases h : '^' ∈ p.excerpt
  · -- The caret survives trimming, and the line that names the line has none.
    have hheader := p.caret_not_mem_header
    have hcaret : '^' ∈ trim (withoutDots p.excerpt) :=
      mem_trim (caret_mem_withoutDots h) (by decide)
    rw [if_pos h]
    refine iff_of_false (fun heq => ?_) (not_not_intro h)
    rw [Option.some.inj heq] at hheader
    exact hheader hcaret
  · rw [if_neg h]
    exact iff_of_true rfl h

/-- A power in the source, with a caret of its own. -/
def power : Pointer := ⟨2, "A^B", 1, by decide⟩

/-- The caret of a power passes for the one below it, and the line above is taken instead. -/
theorem power_taken_for_pointer :
    excerpt? (lines (power.text ++ '\n' :: "Expecting 'SEMI', got 'PS'")) =
      some "Parse error on line 2:" ∧
    trim (withoutDots power.excerpt) = "A^B" := by
  decide +kernel

/-- What a parser says about a token that it did not expect. -/
structure Complaint where
  pointer : Pointer
  /-- What it expected, as it lists it. -/
  expected : Text
  /-- The token that it got. -/
  token : Text
  excerpt_plain : ¬ ("Expecting" : Text) <:+: pointer.excerpt
  expected_ne_nil : expected ≠ []
  expected_single : '\n' ∉ expected
  expected_plain : ¬ (", got '" : Text) <:+: expected
  token_ne_nil : token ≠ []
  token_plain : '\'' ∉ token

def Complaint.text (c : Complaint) : Text :=
  c.pointer.text ++ '\n' :: ("Expecting " ++ (c.expected ++ (", got '" ++ (c.token ++ ['\'']))))

theorem unread_of_not_prefix {t : Text} (h : ¬ ("Expecting" : Text) <+: t) :
    (after? "Expecting " t).bind gotBehind? = none := by
  have hwords : ("Expecting" : Text) <+: ("Expecting " : Text) := by decide
  rw [after?_eq_none fun hstart => h (hwords.trans hstart)]
  rfl

theorem gotToken?_eq_none {message : Text} (h : ¬ ("Expecting" : Text) <:+: message) :
    gotToken? message = none :=
  search_eq_none fun _ hu => unread_of_not_prefix fun hstart =>
    h (hstart.isInfix.trans hu.isInfix)

/-- The token is looked for behind the lines that do not speak of expectations. -/
theorem gotToken?_append {front : Text} (h : ¬ ("Expecting" : Text) <:+: front) (t : Text) :
    gotToken? (front ++ '\n' :: t) = gotToken? t := by
  have hfeed : '\n' ∉ ("Expecting" : Text) := by decide
  rw [List.append_cons]
  refine search_append_of_unread fun s hs hne => unread_of_not_prefix fun hstart => ?_
  obtain hnil | ⟨u, rfl, hu⟩ := List.suffix_concat_iff.mp hs
  · exact hne hnil
  · rw [← List.append_cons] at hstart
    exact h ((prefix_of_not_mem hfeed hstart).isInfix.trans hu.isInfix)

theorem gotAt?_of_not_prefix {t : Text} (h : ¬ (", got '" : Text) <+: t) : gotAt? t = none := by
  rw [gotAt?, after?_eq_none h]
  rfl

theorem gotAt?_quoted {token : Text} (hne : token ≠ []) (hplain : '\'' ∉ token) (rest : Text) :
    gotAt? (", got '" ++ (token ++ '\'' :: rest)) = some token := by
  have hrun : ∀ c ∈ token, (c != '\'') = true := fun c hc =>
    bne_iff_ne.mpr fun heq => hplain (heq ▸ hc)
  have htake : (token ++ '\'' :: rest).takeWhile (· != '\'') = token :=
    takeWhile_of_run hrun (by decide)
  have hdrop : (token ++ '\'' :: rest).dropWhile (· != '\'') = '\'' :: rest :=
    dropWhile_eq_cons_iff.mpr ⟨token, rfl, hrun, by decide⟩
  obtain ⟨c, token, rfl⟩ := List.exists_cons_of_ne_nil hne
  rw [gotAt?, after?_eq_some_iff.mpr rfl]
  simp only [Option.bind_eq_bind, Option.bind_some, htake, hdrop]

/-- Behind what was expected the mark of the token stands for the first time. -/
theorem gotBehind?_expected {expected behind token : Text}
    (hgot : gotAt? (", got '" ++ behind) = some token) (hne : expected ≠ [])
    (hsingle : '\n' ∉ expected) (hplain : ¬ (", got '" : Text) <:+: expected) :
    gotBehind? (expected ++ (", got '" ++ behind)) = some token := by
  induction expected with
  | nil => exact absurd rfl hne
  | cons c t ih =>
    obtain ⟨hc, ht⟩ := not_or.mp (mt List.mem_cons.mpr hsingle)
    rw [List.cons_append, gotBehind?, if_neg (Ne.symm hc)]
    cases t with
    | nil => rw [List.nil_append, hgot, Option.some_or]
    | cons d t =>
      have hhere : gotAt? (d :: t ++ (", got '" ++ behind)) = none := by
        refine gotAt?_of_not_prefix fun hstart => hplain ?_
        -- A mark that reached over the end of the list would hold a second comma.
        have hcomma : ',' ∉ (", got '" : Text).drop (d :: t).length := by
          intro h
          have htail : ',' ∉ (", got '" : Text).drop 1 := by decide
          rw [List.length_cons, Nat.add_comm, ← List.drop_drop] at h
          exact htail (List.mem_of_mem_drop h)
        have hinside : (", got '" : Text) <+: d :: t :=
          prefix_of_not_mem_drop (u := " got '" ++ behind) hcomma hstart
        exact hinside.isInfix.trans (List.suffix_cons c _).isInfix
      have hbehind := ih (List.cons_ne_nil d t) ht
        fun hinside => hplain (hinside.trans (List.suffix_cons c _).isInfix)
      rw [hhere, Option.none_or, hbehind]

theorem Pointer.not_infix_text (p : Pointer) {words : Text} (hfeed : '\n' ∉ words)
    (hheader : ¬ words <:+: p.header) (hexcerpt : ¬ words <:+: p.excerpt)
    (hcaret : ¬ words <:+: p.caretLine) : ¬ words <:+: p.text := by
  intro h
  obtain h | h := infix_append_cons hfeed h
  · exact hheader h
  · obtain h | h := infix_append_cons hfeed h
    · exact hexcerpt h
    · exact hcaret h

theorem gotToken?_complaint (c : Complaint) : gotToken? c.text = some c.token := by
  have hx : 'x' ∈ ("Expecting" : Text) := by decide
  have hheader : 'x' ∉ c.pointer.header :=
    c.pointer.not_mem_header (by decide) (by decide) (by decide)
  have hcaret : 'x' ∉ c.pointer.caretLine := c.pointer.not_mem_caretLine (by decide) (by decide)
  have hpointer : ¬ ("Expecting" : Text) <:+: c.pointer.text :=
    c.pointer.not_infix_text (by decide) (fun h => hheader (h.subset hx)) c.excerpt_plain
      fun h => hcaret (h.subset hx)
  have hgot := gotAt?_quoted c.token_ne_nil c.token_plain []
  rw [Complaint.text, gotToken?_append hpointer]
  refine search_of_start ?_
  rw [after?_eq_some_iff.mpr rfl, Option.bind_some]
  exact gotBehind?_expected hgot c.expected_ne_nil c.expected_single c.expected_plain

theorem parseHeader_pointer (p : Pointer) (behind : Text) :
    ParseHeader (p.text ++ behind) (ofNat p.number) := by
  refine ⟨'\n' :: (p.excerpt ++ '\n' :: p.caretLine) ++ behind, "Parse error on line ".toList, ?_,
    by decide, Nat.toDigits_ne_nil, fun c hc => ?_, fun c hc => ?_⟩
  · unfold Pointer.text Pointer.header
    simp only [List.append_assoc, List.cons_append]
    rfl
  · rw [isDigit, digitValue?_of_isDigit (isDigit_of_mem_ofNat hc)]
    rfl
  · obtain rfl := Option.some.inj hc
    decide

end Shape

namespace TokenHint

theorem nodup_table : (table.map (·.1)).Nodup := by
  decide +kernel

/-- A token is found with what the table says about it. -/
theorem find?_eq_some_iff {token : Text} {hint : TokenHint} :
    find? token = some hint ↔ (token, hint) ∈ table := by
  unfold find?
  constructor
  · intro h
    obtain ⟨entry, hfound, rfl⟩ := Option.map_eq_some_iff.mp h
    have hname : entry.1 = token := by simpa using List.find?_some hfound
    rw [← hname]
    exact List.mem_of_find?_eq_some hfound
  · intro h
    have hsome : (table.find? (·.1 = token)).isSome := List.find?_isSome.mpr ⟨_, h, by simp⟩
    obtain ⟨entry, hfound⟩ := Option.isSome_iff_exists.mp hsome
    have hname : entry.1 = token := by simpa using List.find?_some hfound
    rw [hfound, List.inj_on_of_nodup_map nodup_table (List.mem_of_find?_eq_some hfound) h hname]
    rfl

end TokenHint

theorem Template.message_positionalParseFailure {line : Option Line} {message : Text}
    {hint context : Option Text} (h : message ≠ []) :
    (positionalParseFailure line message hint context).message = message :=
  if_neg h

namespace FreeText

open Text

/-- A diagnostic says about a token what the table of tokens says, or quotes it if the table does
not know it. -/
structure Explains (d : Diagnostic) (token : Text) : Prop where
  known : ∀ hint, (token, hint) ∈ TokenHint.table →
    d.message = hint.message ∧ d.hint = some hint.hint
  unknown : (∀ hint, (token, hint) ∉ TokenHint.table) →
    d.message = "Syntax error: unexpected \"" ++ token ++ "\"" ∧
      d.hint = some "Check the syntax near this position"

theorem explains_of_got {message token : Text} (h : Shape.gotToken? message = some token)
    (line : Option Line) (context : Option Text) :
    Explains (Template.positionalParseFailure line (parseErrorText message).1
      (parseErrorText message).2 context) token where
  known hint hmem := by
    have hfound := TokenHint.find?_eq_some_iff.mpr hmem
    have htext : parseErrorText message = (hint.message, some hint.hint) := by
      simp only [parseErrorText, h, hfound]
    rw [htext]
    exact ⟨Template.message_positionalParseFailure (TokenHint.message_ne_nil hfound), rfl⟩
  unknown hnone := by
    have hfound : TokenHint.find? token = none :=
      Option.eq_none_iff_forall_ne_some.mpr fun hint hsome =>
        hnone hint (TokenHint.find?_eq_some_iff.mp hsome)
    have htext : parseErrorText message = ("Syntax error: unexpected \"" ++ token ++ "\"",
        some "Check the syntax near this position".toList) := by
      simp only [parseErrorText, h, hfound]
      rfl
    rw [htext]
    exact ⟨Template.message_positionalParseFailure (by simp), rfl⟩

/-- A complaint about a token is diagnosed on the line that it names, in the words of the table of
tokens. -/
theorem complaint_explained (c : Shape.Complaint) (hline : 1 ≤ c.pointer.number)
    (hdigits : (ofNat c.pointer.number).length ≤ digitLimit) (code : Text) :
    ∃ d, diagnose c.text code = .ok d ∧ d.code = .positionalParseFailure ∧
      d.line = some ⟨c.pointer.number, hline⟩ ∧ Explains d c.token := by
  have hshape : Shape.of? c.text = some (.parseError (ofNat c.pointer.number)) :=
    Shape.of?_of_parseHeader (Shape.first_of_start (Shape.parseHeader_pointer c.pointer _))
  refine ⟨_, diagnose_of_parseError hshape hdigits code, rfl, ?_,
    explains_of_got (Shape.gotToken?_complaint c) _ _⟩
  rw [digitsValue_ofNat]
  exact Line.ofInt?_number ⟨c.pointer.number, hline⟩

/-- A bracket that is left open, where something else was expected than what was got. -/
def openBracket : Shape.Complaint where
  pointer := ⟨12, "...A^2 --> [B", 9, by decide⟩
  expected := "'AMP', got nothing, 'COLON'"
  token := "SQS"
  excerpt_plain := by decide +kernel
  expected_ne_nil := by decide
  expected_single := by decide
  expected_plain := by decide +kernel
  token_ne_nil := by decide
  token_plain := by decide

theorem complaint_explained_openBracket :
    1 ≤ openBracket.pointer.number ∧ (ofNat openBracket.pointer.number).length ≤ digitLimit ∧
      ∃ d, diagnose openBracket.text "graph TD\nA^2 --> [B" = .ok d ∧
        d.code = .positionalParseFailure ∧ d.line = some ⟨12, by decide⟩ ∧
        d.message = "Unclosed square bracket" ∧
        d.hint = some "Add closing ] to complete the node shape: A[text]" := by
  have hline : 1 ≤ openBracket.pointer.number := by decide
  have hdigits : (ofNat openBracket.pointer.number).length ≤ digitLimit := by decide
  have hknown : ("SQS".toList, (⟨"Unclosed square bracket",
      "Add closing ] to complete the node shape: A[text]"⟩ : TokenHint)) ∈ TokenHint.table :=
    List.mem_cons_self
  obtain ⟨d, hd, hcode, hnumber, hexplains⟩ :=
    complaint_explained openBracket hline hdigits "graph TD\nA^2 --> [B"
  exact ⟨hline, hdigits, d, hd, hcode, hnumber, hexplains.known _ hknown⟩

end FreeText

end FragmentLint
