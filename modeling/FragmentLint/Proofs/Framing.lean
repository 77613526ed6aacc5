import FragmentLint.Proofs.JsonWeight
import FragmentLint.Proofs.StrayOutput

/-!
# Where a reply ends

A reply is one line of output. A session takes a line to end at a line feed, but the output of a
script is cut at other characters too, and some of these stand in JSON text as they are. A reply
that holds one of them is cut into pieces, and each piece weighs less than the reply, so none of
them can pass for it. Every other reply is read in the same way by both.
-/
namespace FragmentLint

namespace Json

mutual

/-- The texts in a value: its strings and the names of its members. -/
def texts : Json → List Text
  | .str s => [s]
  | .arr items => itemTexts items
  | .obj members => memberTexts members
  | _ => []

def itemTexts : List Json → List Text
  | [] => []
  | item :: items => texts item ++ itemTexts items

def memberTexts : List (Text × Json) → List Text
  | [] => []
  | (name, value) :: members => name :: (texts value ++ memberTexts members)

end

/-- A text without control characters whose characters outside the basic alphabet are those of
some given texts. -/
structure Carries (parts : List Text) (t : Text) : Prop where
  plain : ∀ c ∈ t, 0x20 ≤ c.toNat
  mem_iff : ∀ c : Char, 0x7f ≤ c.toNat → (c ∈ t ↔ ∃ s ∈ parts, c ∈ s)

theorem carries_basic {parts : List Text} {t : Text} (ht : ∀ c ∈ t, Basic c)
    (hparts : ∀ s ∈ parts, ∀ c ∈ s, c.toNat < 0x7f) : Carries parts t where
  plain := fun c hc => (ht c hc).1
  mem_iff := by
    intro c hbeyond
    constructor
    · intro hc
      have hbasic := (ht c hc).2
      omega
    · rintro ⟨s, hs, hc⟩
      have hbasic := hparts s hs c hc
      omega

theorem Carries.append {parts more : List Text} {t u : Text} (ht : Carries parts t)
    (hu : Carries more u) : Carries (parts ++ more) (t ++ u) where
  plain := fun c hc => (List.mem_append.mp hc).elim (ht.plain c) (hu.plain c)
  mem_iff := by
    intro c hbeyond
    simp only [List.mem_append, ht.mem_iff c hbeyond, hu.mem_iff c hbeyond, or_and_right,
      exists_or]

/-- What is written around a text adds nothing to what is carried. -/
theorem Carries.behind {parts : List Text} {u : Text} (hu : Carries parts u) {t : Text}
    (ht : ∀ c ∈ t, Basic c) : Carries parts (t ++ u) := by
  have hnone : Carries [] t := carries_basic ht (by simp)
  exact hnone.append hu

theorem Carries.before {parts : List Text} {t : Text} (ht : Carries parts t) {u : Text}
    (hu : ∀ c ∈ u, Basic c) : Carries parts (t ++ u) := by
  have hnone : Carries [] u := carries_basic hu (by simp)
  have hboth := ht.append hnone
  rwa [List.append_nil] at hboth

theorem basic_escapedUnit (n : Nat) : ∀ d ∈ escapedUnit n, Basic d := by
  have hdigit : ∀ d, d < 16 → Basic (Nat.digitChar d) := by decide
  have hmod : ∀ n, Basic (Nat.digitChar (n % 16)) := fun n => hdigit _ (Nat.mod_lt n (by decide))
  have hmarks : Basic '\\' ∧ Basic 'u' := by decide
  simp [escapedUnit, Text.hex, hmod, hmarks]

theorem carries_escapedChar (c : Char) : Carries [[c]] (escapedChar false c) := by
  have hescapes := escapes false c
  generalize escapedChar false c = u at hescapes ⊢
  cases hescapes with
  | short hread hd hc =>
    have hslash : Basic '\\' := by decide
    exact carries_basic (by simp [hslash, hd]) (by simpa using hc)
  | unit hc hcontrol =>
    have hcontrol := hcontrol rfl
    exact carries_basic (basic_escapedUnit c.toNat) (by simp; omega)
  | pair hc hbasic => cases hbasic
  | plain hquote hslash hc =>
    refine ⟨?_, by simp⟩
    intro d hd
    rw [List.mem_singleton.mp hd]
    exact hc

theorem carries_quoted (s : Text) : Carries [s] (quotedText false s) := by
  have hbody : Carries [s] (s.flatMap (escapedChar false)) := by
    induction s with
    | nil => exact carries_basic (by simp) (by simp)
    | cons c s ih =>
      have hboth := (carries_escapedChar c).append ih
      refine ⟨hboth.plain, fun d hd => (hboth.mem_iff d hd).trans ?_⟩
      simp
  exact (hbody.behind (t := ['"']) (by simp [Basic])).before (by simp [Basic])

theorem basic_of_isDigit {c : Char} (h : c.isDigit = true) : Basic c := by
  have hbounds := Text.toNat_of_isDigit h
  exact ⟨by omega, by omega⟩

theorem carries_numeral (n : Numeral) : Carries [] n.text :=
  carries_basic (n.forall_mem_text (fun _ => basic_of_isDigit) (by simp [Basic])) (by simp)

/-- A member carries its name and what its value carries. -/
theorem Carries.member (name : Text) {t u : Text} {parts more : List Text} (ht : Carries parts t)
    (hu : Carries more u) :
    Carries (name :: (parts ++ more)) (quotedText Style.reply.basicOnly name ++
      (Style.reply.colon ++ (t ++ u))) :=
  (carries_quoted name).append ((ht.append hu).behind (by simp [Basic, Style.reply]))

mutual

/-- The text of a value carries the texts in it. -/
theorem carries_printed : ∀ (v : Json) {t : Text}, Printed .reply v t → Carries v.texts t
  | .null, _, .null => carries_basic (by simp [Basic]) (by simp [texts])
  | .bool true, _, .yes => carries_basic (by simp [Basic]) (by simp [texts])
  | .bool false, _, .no => carries_basic (by simp [Basic]) (by simp [texts])
  | .num _, _, .num n => by
    rw [texts.eq_def]
    exact carries_numeral n
  | .str s, _, .str _ => by
    rw [texts]
    exact carries_quoted s
  | .arr [], _, .noItems => carries_basic (by simp [Basic]) (by simp [texts, itemTexts])
  | .arr (item :: items), _, .arr hitem hitems => by
    rw [texts, itemTexts]
    have hboth := (carries_printed item hitem).append (carries_printedItems items hitems)
    exact hboth.behind (t := ['[']) (by simp [Basic])
  | .obj [], _, .noMembers => carries_basic (by simp [Basic]) (by simp [texts, memberTexts])
  | .obj ((name, v) :: members), _, .obj hname hvalue hmembers => by
    rw [texts, memberTexts]
    have hmember := Carries.member name (carries_printed v hvalue)
      (carries_printedMembers members hmembers)
    exact hmember.behind (t := ['\x7b']) (by simp [Basic])

theorem carries_printedItems : ∀ (items : List Json) {t : Text}, PrintedItems .reply items t →
    Carries (itemTexts items) t
  | [], _, .done => carries_basic (by simp [Basic]) (by simp [itemTexts])
  | item :: items, _, .more hitem hitems => by
    rw [itemTexts]
    have hboth := (carries_printed item hitem).append (carries_printedItems items hitems)
    exact hboth.behind (by simp [Basic, Style.reply])

theorem carries_printedMembers : ∀ (members : Members) {t : Text},
    PrintedMembers .reply members t → Carries (memberTexts members) t
  | [], _, .done => carries_basic (by simp [Basic]) (by simp [memberTexts])
  | (name, v) :: members, _, .more hname hvalue hmembers => by
    rw [memberTexts]
    have hmember := Carries.member name (carries_printed v hvalue)
      (carries_printedMembers members hmembers)
    exact hmember.behind (by simp [Basic, Style.reply])

end

/-- An object ends with its brace. -/
theorem getLast?_printedMembers {style : Style} {members : Members} {t : Text}
    (h : PrintedMembers style members t) : t.getLast? = some '\x7d' := by
  induction members generalizing t with
  | nil =>
    cases h
    rfl
  | cons m members ih =>
    cases h with
    | more hname hvalue hmembers => simp [List.getLast?_append, ih hmembers]

theorem getLast?_printed {style : Style} {members : Members} {t : Text}
    (h : Printed style (.obj members) t) : t.getLast? = some '\x7d' := by
  cases h with
  | noMembers => rfl
  | obj hname hvalue hmembers =>
    simp [List.getLast?_cons, List.getLast?_append, getLast?_printedMembers hmembers]

/-- Nothing is trimmed off an object. -/
theorem trim_printed {style : Style} {members : Members} {t : Text}
    (h : Printed style (.obj members) t) : Text.trim t = t := by
  refine Text.trim_of_ends ?_ ?_
  · intro c hc
    cases h <;>
    · obtain rfl : '\x7b' = c := Option.some.inj hc
      rfl
  · intro c hc
    rw [getLast?_printed h] at hc
    obtain rfl : '\x7d' = c := Option.some.inj hc
    rfl

theorem weightOf_beyond {c : Char} (h : 0x7f ≤ c.toNat) : weightOf c = 1 := by
  have hle : ∀ d : Char, d.toNat < 0x7f → ¬ c ≤ d := by
    intro d hd hcd
    have hnat : c.toNat ≤ d.toNat := hcd
    omega
  have hne : ∀ d : Char, d.toNat < 0x7f → c ≠ d := by
    rintro d hd rfl
    omega
  have hdigit : c.isDigit = false := by
    by_contra hd
    have hbasic := basic_of_isDigit (by simpa using hd)
    exact absurd hbasic.2 (by omega)
  have hhex : Text.hexValue? c = none := by
    simp [Text.hexValue?, hdigit, hle 'f' (by decide), hle 'F' (by decide)]
  simp [weightOf, hhex, hne '+' (by decide), hne '-' (by decide), hne '.' (by decide)]

theorem weight_filter_lt {t : Text} {p : Char → Bool} {c : Char} (hmem : c ∈ t)
    (hdropped : p c = false) (hweight : weightOf c = 1) : weight (t.filter p) < weight t := by
  obtain ⟨before, after, rfl⟩ := List.append_of_mem hmem
  have hbefore := weight_sublist (List.filter_sublist (p := p) (l := before))
  have hafter := weight_sublist (List.filter_sublist (p := p) (l := after))
  rw [List.filter_append, List.filter_cons_of_neg (by simp [hdropped]), weight_append,
    weight_append, weight_cons, hweight]
  omega

end Json

namespace Script

open Json

/-- Whether a character ends a line of a script's output and stands in JSON text as it is. -/
def cuts (c : Char) : Bool :=
  c.toNat ∈ [0x85, 0x2028, 0x2029]

theorem endsLine_eq_cuts {c : Char} (h : 0x20 ≤ c.toNat) : endsLine c = cuts c := by
  unfold endsLine cuts
  rw [Bool.eq_iff_iff]
  simp
  omega

theorem beyond_of_cuts {c : Char} (h : cuts c = true) : 0x7f ≤ c.toNat := by
  simp [cuts] at h
  omega

/-- A line keeps no character that ends a line. -/
theorem splitLines_sublist {t l : Text} (h : l ∈ splitLines t) :
    l.Sublist (t.filter fun c => !endsLine c) := by
  fun_induction splitLines t generalizing l with
  | case1 => cases h
  | case2 t ih =>
    obtain rfl | h := List.mem_cons.mp h
    · exact List.nil_sublist _
    · exact ih h
  | case3 c t hreturn hends ih =>
    obtain rfl | h := List.mem_cons.mp h
    · exact List.nil_sublist _
    · rw [List.filter_cons_of_neg (by simp [hends])]
      exact ih h
  | case4 c t hreturn hends hnil ih =>
    obtain rfl := List.mem_singleton.mp h
    rw [List.filter_cons_of_pos (by simp [hends])]
    exact (List.nil_sublist _).cons_cons c
  | case5 c t hreturn hends l' ls ht ih =>
    rw [List.filter_cons_of_pos (by simp [hends])]
    obtain rfl | h := List.mem_cons.mp h
    · exact (ih (by simp [ht])).cons_cons c
    · exact (ih (by simp [ht, h])).cons c

/-- A value that holds a character which ends a line is read from no line of its text. -/
theorem not_read_of_cuts [Host] {v : Json} {t : Text} (h : Printed .reply v t) {s : Text}
    (hs : s ∈ v.texts) {c : Char} (hc : c ∈ s) (hcuts : cuts c = true) {l : Text}
    (hl : l ∈ splitLines (t ++ ['\n'])) : read l ≠ .ok v := by
  intro hread
  have hbeyond := beyond_of_cuts hcuts
  have hmem : c ∈ t := ((carries_printed v h).mem_iff c hbeyond).mpr ⟨s, hs, hc⟩
  have hends : endsLine c = true := by
    rw [endsLine_eq_cuts (by omega), hcuts]
  have hsublist := splitLines_sublist hl
  have hfilter : (t ++ ['\n']).filter (fun c => !endsLine c) = t.filter fun c => !endsLine c := by
    simp [List.filter_append, endsLine]
  rw [hfilter] at hsublist
  have hless := weight_filter_lt (p := fun c => !endsLine c) hmem (by simp [hends])
    (weightOf_beyond hbeyond)
  have hlight := weight_sublist hsublist
  have hvalue := weight_read hread
  rw [← weight_printed v h] at hvalue
  omega

/-- No text in a value holds a character that ends a line where it stands. -/
def Whole (v : Json) : Prop :=
  ∀ s ∈ v.texts, ∀ c ∈ s, cuts c = false

instance (v : Json) : Decidable (Whole v) :=
  decidable_of_iff (v.texts.all fun s => s.all fun c => !cuts c) (by simp [Whole])

theorem splitLines_printed {v : Json} {t : Text} (h : Printed .reply v t) (hwhole : Whole v) :
    splitLines (t ++ ['\n']) = [t] := by
  refine splitLines_line ?_ (by decide)
  intro d hd
  have hcarries := carries_printed v h
  rw [endsLine_eq_cuts (hcarries.plain d hd)]
  by_contra hcuts
  have hcuts : cuts d = true := by simpa using hcuts
  obtain ⟨s, hs, hds⟩ := (hcarries.mem_iff d (beyond_of_cuts hcuts)).mp hd
  rw [hwhole s hs d hds] at hcuts
  cases hcuts

/-- A script is taken to answer with an object that it prints on a line exactly if brackets are not
nested too deep in it and it is not cut. -/
theorem reply_printed_iff [Host] {r : Members} {t : Text} (h : Printed .reply (.obj r) t)
    (executable errors : Text) (code : Int) :
    reply executable (.finished (t ++ ['\n']) errors code) = .ok r ↔
      (Json.obj r).depth ≤ Host.nestingLimit ∧ Whole (.obj r) := by
  have hread := read_printed Style.spaced_reply h
  rw [reply_eq_ok_iff]
  constructor
  · rintro ⟨output, errors', exit, after, hend, ⟨before, line, hlines, hline, -⟩, -⟩
    obtain ⟨rfl, -, -⟩ := ScriptEnd.finished.inj hend
    have hmem : line ∈ splitLines (t ++ ['\n']) := by simp [hlines]
    have hwhole : Whole (.obj r) := by
      intro s hs c hc
      by_contra hcuts
      exact not_read_of_cuts h hs hc (by simpa using hcuts) hmem hline
    rw [splitLines_printed h hwhole] at hmem
    obtain rfl := List.mem_singleton.mp hmem
    refine ⟨?_, hwhole⟩
    by_contra hdeep
    obtain ⟨opensObject, herror⟩ := hread.2 (by omega)
    rw [herror] at hline
    cases hline
  · rintro ⟨hdepth, hwhole⟩
    exact ⟨_, errors, code, [], rfl, ⟨[], t, splitLines_printed h hwhole, hread.1 hdepth,
      by simp⟩, by simp⟩

theorem garbled_line_iff [Host] {output t : Text} (hlines : splitLines output = [t])
    {fault : ValueFault} : Garbled output fault ↔ said? t = some (.error fault) := by
  rw [garbled_iff, hlines, List.reverse_singleton, answer?_cons]
  cases said? t with
  | none => simp [answer?]
  | some said => cases said <;> simp

end Script

namespace Session

/-- When all that a process has written was read, the next line that it writes is the next piece to
be read. -/
theorem pieces_emit_line {p : Child} (halive : p.exit = none) (hunread : p.unread = [])
    (hunfinished : p.unfinished = []) {t : Text} (ht : '\n' ∉ t) (errors : Text)
    (exit : Option Int) : (p.emit (t ++ ['\n']) errors exit).pieces = [.line t] := by
  have hlines : Text.lines (t ++ ['\n']) = [t, []] := Text.lines_append_feed ht []
  cases exit <;>
    simp [Child.emit, Child.finish, Child.isAlive, Child.pieces, halive, hunread, hunfinished,
      hlines, Child.isOverlong_nil, Text.nonempty?]

/-- A session that has one line to read hears what that says. -/
theorem hears_line_iff [Host] {s : Session} {t : Text} (hpieces : s.child.pieces = [.line t])
    {said : Except ValueFault Json.Members} :
    (∃ u, s.hear? = some (heard said, u)) ↔ read? t = some said := by
  obtain ⟨v, hreads, hrest⟩ := reads_of_pieces hpieces
  rw [hear?_of_reads hreads, hear?_of_pieces hrest, Piece.said?]
  cases read? t with
  | some found => simp [heard_inj]
  | none =>
    cases v.child.exit <;> cases said <;> simp [heard]

/-- A session whose process has written more, and perhaps ended. -/
def told (s : Session) (output errors : Text) (exit : Option Int) : Session :=
  { s with child := s.child.emit output errors exit }

/-- A session that goes on and has read all that its process has written. -/
structure CaughtUp (s : Session) : Prop where
  alive : s.child.exit = none
  unread : s.child.unread = []
  unfinished : s.child.unfinished = []

/-- An object that is printed on a line is the next line that a session reads. -/
theorem pieces_told {v : Json} {t : Text} (h : Json.Printed .reply v t) {s : Session}
    (hs : s.CaughtUp) (errors : Text) (exit : Option Int) :
    (s.told (t ++ ['\n']) errors exit).child.pieces = [.line t] := by
  refine pieces_emit_line hs.alive hs.unread hs.unfinished ?_ errors exit
  intro hfeed
  exact absurd ((Json.carries_printed v h).plain _ hfeed) (by decide)

/-- A session hears an object that its process prints on a line exactly if the line is not too long
and brackets are not nested too deep in it. -/
theorem hears_printed_iff [Host] {r : Json.Members} {t : Text} (h : Json.Printed .reply (.obj r) t)
    {s : Session} (hs : s.CaughtUp) (errors : Text) (exit : Option Int) :
    (∃ u, (s.told (t ++ ['\n']) errors exit).hear? = some (.message r, u)) ↔
      Child.isOverlong t = false ∧ (Json.obj r).depth ≤ Host.nestingLimit := by
  have hread := Json.read_printed Json.Style.spaced_reply h
  rw [← heard, hears_line_iff (pieces_told h hs errors exit), read?_eq_ok_iff, said?,
    Json.trim_printed h, Json.said?_eq_ok_iff]
  refine and_congr_right fun _ => ⟨?_, hread.1⟩
  intro hobject
  by_contra hdeep
  obtain ⟨opensObject, herror⟩ := hread.2 (by omega)
  rw [herror] at hobject
  cases hobject

end Session

/-- A reply that is printed on a line is read by a session if the line is not too long and brackets
are not nested too deep in it, and by the reader of a script's output if brackets are not and no
text in it holds a character that ends a line where it stands. A reply without such characters on a
line that is not too long is refused by both for the same reason, if it is. -/
theorem framings_agree_iff [Host] {r : Json.Members} {t : Text} (h : Json.Printed .reply (.obj r) t)
    {s : Session} (hs : s.CaughtUp) (executable errors : Text) (exit : Option Int) (code : Int) :
    ((∃ u, (s.told (t ++ ['\n']) errors exit).hear? = some (.message r, u)) ↔
      Child.isOverlong t = false ∧ (Json.obj r).depth ≤ Host.nestingLimit) ∧
    (Child.isOverlong t = true →
      ∃ u, (s.told (t ++ ['\n']) errors exit).hear? = some (.fault (.overlong true), u)) ∧
    (Script.reply executable (.finished (t ++ ['\n']) errors code) = .ok r ↔
      (Json.obj r).depth ≤ Host.nestingLimit ∧ Script.Whole (.obj r)) ∧
    (Script.Whole (.obj r) → Child.isOverlong t = false → ∀ fault,
      Script.reply executable (.finished (t ++ ['\n']) errors code) = .error (.value fault) ↔
        ∃ u, (s.told (t ++ ['\n']) errors exit).hear? = some (.fault fault, u)) := by
  have hpieces := Session.pieces_told h hs errors exit
  refine ⟨Session.hears_printed_iff h hs errors exit, fun hlong => ?_,
    Script.reply_printed_iff h executable errors code, fun hwhole hlong fault => ?_⟩
  · refine (Session.hears_line_iff hpieces).mpr (?_ : _ = some (.error _))
    rw [Session.read?, if_pos hlong]
  · have hgarbled : Script.Garbled (t ++ ['\n']) fault ↔ Json.said? t = some (.error fault) :=
      Script.garbled_line_iff (Script.splitLines_printed h hwhole)
    have hread : Session.read? t = Json.said? t := by
      rw [Session.read?, hlong, if_neg Bool.false_ne_true, Session.said?, Json.trim_printed h]
    have hhears := @Session.hears_line_iff _ _ _ hpieces (.error fault)
    rw [hread, ← hgarbled] at hhears
    rw [Script.reply_eq_value_iff]
    refine Iff.trans ⟨?_, fun hsaid => .inl ⟨_, errors, code, rfl, hsaid⟩⟩ hhears.symm
    rintro (⟨output, errors', exit', hend, hsaid⟩ | ⟨output, bytes, hend, -⟩)
    · obtain ⟨rfl, -, -⟩ := ScriptEnd.finished.inj hend
      exact hsaid
    · cases hend

/-- A session over a process that has written nothing. -/
def silentSession : Session :=
  .ofChild { behaviour := ⟨1, [], [], none, fun _ => .write [] [] none, some 0⟩ }

theorem silentSession_caughtUp : silentSession.CaughtUp :=
  ⟨rfl, rfl, rfl⟩

section

open scoped Host.Usual

theorem framings_agree_ok :
    Script.reply "node" (.finished "\x7b\"ok\":true\x7d\n" [] 0) = .ok [("ok", .bool true)] ∧
    ∃ u, (silentSession.told "\x7b\"ok\":true\x7d\n" [] none).hear? =
      some (.message [("ok", .bool true)], u) := by
  have hprinted : Json.Printed .reply (.obj [("ok", .bool true)]) "\x7b\"ok\":true\x7d" :=
    .obj (by simp) .yes .done
  have hagree := framings_agree_iff hprinted silentSession_caughtUp "node" [] none 0
  have hdepth : (Json.obj [("ok", .bool true)]).depth ≤ Host.nestingLimit := by decide
  have hwhole : Script.Whole (.obj [("ok", .bool true)]) := by decide
  exact ⟨hagree.2.2.1.mpr ⟨hdepth, hwhole⟩, hagree.1.mpr ⟨rfl, hdepth⟩⟩

end

/-- An object whose message is a line separator. -/
def cutReply : Json.Members :=
  [("ok", .bool false), ("message", .str [Char.ofNat 0x2028])]

def cutText : Text :=
  "\x7b\"ok\":false,\"message\":\"\u2028\"\x7d"

theorem printed_cutReply : Json.Printed .reply (.obj cutReply) cutText :=
  .obj (by decide) .no (.more (by decide) (.str _) .done)

/-- What stands in front of the separator, and what stands behind it. -/
def cutPieces : List Text :=
  ["\x7b\"ok\":false,\"message\":\"".toList, "\"\x7d".toList]

theorem stray_cutPieces [Host] : ∀ l ∈ cutPieces, Json.Stray l := by
  have hfront : ∀ fuel room, Json.value (fuel + 4) (room + 1)
      "\x7b\"ok\":false,\"message\":\"".toList = .error .malformed := by
    intro fuel room
    simp [Json.value, Json.member, Json.moreMembers, Json.quotedBody?, Json.skipSpace,
      Json.isSpace, Json.scalar, Json.words, Text.after?, List.findSome?, bind, Except.bind, pure,
      Except.pure]
  have hback : ∀ fuel room, Json.value (fuel + 1) room "\"\x7d".toList = .error .malformed := by
    intro fuel room
    simp [Json.value, Json.quotedBody?]
  have hread : ∀ t : Text, Json.value (2 * t.length + 2) Host.nestingLimit (Json.skipSpace t) =
      .error .malformed → Json.Stray t := by
    intro t ht
    exact Json.stray_iff.mpr (.inl (by rw [Json.read, ht]))
  intro l hl
  obtain rfl | hl := List.mem_cons.mp hl
  · have hroom : Host.nestingLimit - 1 + 1 = Host.nestingLimit :=
      Nat.succ_pred_eq_of_ne_zero Host.nestingLimit_ne_zero
    exact hread _ (hroom ▸ hfront 44 (Host.nestingLimit - 1))
  · obtain rfl := List.mem_singleton.mp hl
    exact hread _ (hback 5 Host.nestingLimit)

section

open scoped Host.Usual

/-- A session hears that object, but a script that prints it is taken not to have answered. -/
theorem cut_reply_lost :
    (∃ u, (silentSession.told (cutText ++ ['\n']) [] none).hear? =
      some (.message cutReply, u)) ∧
    Script.reply "node" (.finished (cutText ++ ['\n']) [] 0) =
      .error (.bridge (.ended 0 "no output")) := by
  refine ⟨?_, ?_⟩
  · have hdepth : (Json.obj cutReply).depth ≤ Host.nestingLimit := by decide
    exact (Session.hears_printed_iff printed_cutReply silentSession_caughtUp [] none).mpr
      ⟨rfl, hdepth⟩
  · have hlines : Script.splitLines (cutText ++ ['\n']) = cutPieces := rfl
    have hanswer : Script.answer? (Script.splitLines (cutText ++ ['\n'])).reverse = .ok none := by
      have hstray : ∀ l ∈ cutPieces.reverse, Json.Stray l := fun l hl =>
        stray_cutPieces l (List.mem_reverse.mp hl)
      have hskip := Script.answer?_append hstray []
      rw [List.append_nil] at hskip
      rw [hlines, hskip]
      rfl
    simp only [Script.reply, hanswer]
    rfl

end

end FragmentLint
