import FragmentLint.Bridge.Script
import FragmentLint.Bridge.Session
import Mathlib.Data.List.Induction

/-!
# What a line of output says

Both readers of output go from line to line and stop at the first one that says something: a
session reads forwards, a script's output is searched from its end. Each line by itself is a
message, is passed over, or goes beyond what can be read. The two readers are described here by
these three cases alone, so later proofs need not look at the recursion.
-/
namespace FragmentLint

namespace Json

/-- A text that is passed over: it is not JSON, or it is JSON but no object. -/
def Stray [Host] (t : Text) : Prop :=
  said? t = none

theorem said?_eq_ok_iff [Host] {t : Text} {members : Members} :
    said? t = some (.ok members) ↔ read t = .ok (.obj members) := by
  unfold said?
  split
  · rename_i found h
    simp [h]
  · rename_i v hv h
    simp only [h, Except.ok.injEq, reduceCtorEq, false_iff]
    intro hobj
    exact hv members hobj
  · rename_i fault h
    cases fault.valueFault? <;> simp [h]

theorem said?_eq_error_iff [Host] {t : Text} {fault : ValueFault} :
    said? t = some (.error fault) ↔ ∃ f, read t = .error f ∧ f.valueFault? = some fault := by
  unfold said?
  split
  · rename_i h
    simp [h]
  · rename_i h
    simp [h]
  · rename_i f h
    simp [h]

theorem stray_iff [Host] {t : Text} :
    Stray t ↔ read t = .error .malformed ∨ ∃ v, read t = .ok v ∧ ∀ members, v ≠ .obj members := by
  unfold Stray said?
  split
  · rename_i members h
    simp [h]
  · rename_i v hv h
    simp only [h, true_iff]
    exact .inr ⟨v, rfl, hv⟩
  · rename_i f h
    cases f <;> simp [h, ReadFault.valueFault?]

theorem stray_nil [Host] : Stray [] := by
  have hread : read [] = .error .malformed := by
    simp [read, skipSpace, value, scalar, words, List.findSome?, Text.after?, unsigned, digits]
  simp [Stray, said?, hread, ReadFault.valueFault?]

end Json

namespace Session

/-- A line that a session passes over. -/
def Stray [Host] (line : Text) : Prop :=
  read? line = none

theorem stray_iff [Host] {line : Text} :
    Stray line ↔ Child.isOverlong line = false ∧ Json.Stray (Text.trim line) := by
  unfold Stray read? said? Json.Stray
  cases Child.isOverlong line <;> simp

theorem read?_eq_ok_iff [Host] {line : Text} {members : Json.Members} :
    read? line = some (.ok members) ↔
      Child.isOverlong line = false ∧ said? line = some (.ok members) := by
  unfold read?
  cases Child.isOverlong line <;> simp

theorem message?_cons [Host] (line : Text) (lines : List Text) :
    message? (line :: lines) = match read? line with
      | some said => some (said, lines)
      | none => message? lines :=
  rfl

theorem message?_append [Host] {stray : List Text} (h : ∀ line ∈ stray, Stray line)
    (lines : List Text) : message? (stray ++ lines) = message? lines := by
  induction stray with
  | nil => rfl
  | cons line stray ih =>
    have hline : read? line = none := h line List.mem_cons_self
    rw [List.cons_append, message?_cons, hline]
    exact ih fun l hl => h l (List.mem_cons_of_mem line hl)

theorem message?_eq_some_iff [Host] {lines rest : List Text}
    {said : Except ValueFault Json.Members} :
    message? lines = some (said, rest) ↔ ∃ stray line, lines = stray ++ line :: rest ∧
      (∀ l ∈ stray, Stray l) ∧ read? line = some said := by
  constructor
  · intro h
    induction lines with
    | nil => simp [message?] at h
    | cons line lines ih =>
      rw [message?_cons] at h
      cases hsaid : read? line with
      | some found =>
        simp only [hsaid, Option.some.injEq, Prod.mk.injEq] at h
        obtain ⟨rfl, rfl⟩ := h
        exact ⟨[], line, rfl, by simp, hsaid⟩
      | none =>
        rw [hsaid] at h
        obtain ⟨stray, l, rfl, hstray, hl⟩ := ih h
        refine ⟨line :: stray, l, rfl, ?_, hl⟩
        intro l' hl'
        obtain rfl | hmem := List.mem_cons.mp hl'
        · exact hsaid
        · exact hstray l' hmem
  · rintro ⟨stray, line, rfl, hstray, hline⟩
    rw [message?_append hstray, message?_cons, hline]

theorem message?_eq_none_iff [Host] {lines : List Text} :
    message? lines = none ↔ ∀ l ∈ lines, Stray l := by
  induction lines with
  | nil => simp [message?]
  | cons line lines ih =>
    rw [message?_cons, List.forall_mem_cons]
    cases hsaid : read? line with
    | some said =>
      have hnot : ¬ Stray line := by
        intro hstray
        have : read? line = none := hstray
        simp [this] at hsaid
      simp [hnot]
    | none =>
      have hstray : Stray line := hsaid
      simp [ih, hstray]

end Session

/-- A piece of output that is read at once: a line, or what there is of an unfinished one that is
too long. -/
inductive Piece where
  | line (text : Text)
  | part (text : Text)
  deriving DecidableEq, Repr

namespace Piece

def said? [Host] : Piece → Option (Except ValueFault Json.Members)
  | .line text => Session.read? text
  | .part _ => some (.error (.overlong false))

/-- A piece that a session passes over. -/
def Stray [Host] (x : Piece) : Prop :=
  x.said? = none

def object? [Host] (x : Piece) : Option Json.Members :=
  x.said?.bind Except.toOption

theorem object?_eq_none_of_stray [Host] {x : Piece} (h : x.Stray) : x.object? = none := by
  rw [object?, show x.said? = none from h]
  rfl

end Piece

/-- What there is to read of the output of a process. -/
def Child.pieces (p : Child) : List Piece :=
  p.unread.map .line ++ if isOverlong p.unfinished then [.part p.unfinished] else []

theorem Child.isOverlong_nil : isOverlong [] = false := rfl

theorem Child.isOverlong_append_left {t : Text} (h : isOverlong t = true) (u : Text) :
    isOverlong (t ++ u) = true := by
  simp only [isOverlong, decide_eq_true_eq, Text.bytes_append] at h ⊢
  omega

theorem Child.isOverlong_append_right {t : Text} (h : isOverlong t = true) (u : Text) :
    isOverlong (u ++ t) = true := by
  simp only [isOverlong, decide_eq_true_eq, Text.bytes_append] at h ⊢
  omega

theorem Child.pieces_eq_nil_iff {p : Child} :
    p.pieces = [] ↔ p.unread = [] ∧ isOverlong p.unfinished = false := by
  cases hlong : isOverlong p.unfinished <;> simp [pieces, hlong]

theorem Child.pieces_cons {p : Child} {line : Text} {unread : List Text}
    (h : p.unread = line :: unread) :
    p.pieces = .line line :: ({ p with unread } : Child).pieces := by
  rw [pieces, h]
  rfl

namespace Session

/-- A session reads a piece of output. -/
inductive Reads (s : Session) : Piece → Session → Prop where
  | line {text : Text} {unread : List Text} (hunread : s.child.unread = text :: unread) :
      Reads s (.line text) (s.withUnread unread)
  | part (hunread : s.child.unread = []) (hlong : Child.isOverlong s.child.unfinished = true) :
      Reads s (.part s.child.unfinished) s.overrun

/-- Nothing else of a session is changed by reading. -/
theorem Reads.same {s t : Session} {x : Piece} (h : s.Reads x t) :
    t = { s with
      child := { s.child with unread := t.child.unread, unfinished := t.child.unfinished } } := by
  cases h <;> rfl

theorem Reads.exit {s t : Session} {x : Piece} (h : s.Reads x t) : t.child.exit = s.child.exit := by
  cases h <;> rfl

theorem Reads.written {s t : Session} {x : Piece} (h : s.Reads x t) :
    t.child.written = s.child.written := by
  cases h <;> rfl

theorem Reads.inputClosed {s t : Session} {x : Piece} (h : s.Reads x t) :
    t.child.inputClosed = s.child.inputClosed := by
  cases h <;> rfl

theorem Reads.last {s t : Session} {x : Piece} (h : s.Reads x t) : t.last = s.last := by
  cases h <;> rfl

theorem Reads.pieces {s t : Session} {x : Piece} (h : s.Reads x t) :
    s.child.pieces = x :: t.child.pieces := by
  cases h with
  | line hunread => exact Child.pieces_cons hunread
  | part hunread hlong => simp [Child.pieces, overrun, hunread, hlong, Child.isOverlong_nil]

theorem reads_of_pieces {s : Session} {x : Piece} {rest : List Piece}
    (h : s.child.pieces = x :: rest) : ∃ t, s.Reads x t ∧ t.child.pieces = rest := by
  have hpieces : ∃ t, s.Reads x t := by
    unfold Child.pieces at h
    cases hunread : s.child.unread with
    | cons line unread =>
      obtain ⟨rfl, -⟩ : .line line = x ∧ _ := by simpa [hunread] using h
      exact ⟨_, .line hunread⟩
    | nil =>
      cases hlong : Child.isOverlong s.child.unfinished with
      | false => simp [hunread, hlong] at h
      | true =>
        obtain ⟨rfl, -⟩ : .part s.child.unfinished = x ∧ _ := by simpa [hunread, hlong] using h
        exact ⟨_, .part hunread hlong⟩
  obtain ⟨t, hreads⟩ := hpieces
  exact ⟨t, hreads, (List.cons.inj (hreads.pieces.symm.trans h)).2⟩

/-- What was heard when a piece of output says something. -/
def heard : Except ValueFault Json.Members → Heard
  | .ok members => .message members
  | .error fault => .fault fault

theorem heard_inj {said said' : Except ValueFault Json.Members} :
    heard said = heard said' ↔ said = said' := by
  cases said <;> cases said' <;> simp [heard]

theorem hear?_of_reads [Host] {s u : Session} {x : Piece} (h : s.Reads x u) :
    s.hear? = match x.said? with
      | some said => some (heard said, u)
      | none => u.hear? := by
  cases h with
  | @line text unread hunread =>
    rw [hear?, hunread, message?_cons, Piece.said?]
    cases hread : read? text with
    | none => rfl
    | some said => cases said <;> rfl
  | part hunread hlong =>
    rw [hear?, hunread, hlong]
    rfl

theorem hear?_of_pieces [Host] {s : Session} (h : s.child.pieces = []) :
    s.hear? = s.child.exit.map fun code => (.ended code (detail s.errors), s) := by
  obtain ⟨hunread, hlong⟩ := Child.pieces_eq_nil_iff.mp h
  have hsame : s.withUnread [] = s := by
    rw [withUnread, ← hunread]
  rw [hear?, hunread, hlong, hsame]
  cases s.child.exit <;> rfl

/-- What a process writes first is the first line to be read. -/
theorem unread_emit_line {p : Child} {line : Text} (rest errors : Text) (hexit : p.exit = none)
    (hunread : p.unread = []) (hunfinished : p.unfinished = []) (hline : '\n' ∉ line) :
    (p.emit (line ++ '\n' :: rest) errors none).unread = line :: (Text.lines rest).dropLast := by
  simp [Child.emit, Child.isAlive, hexit, hunread, hunfinished, Text.lines_append_feed hline,
    List.dropLast_cons_of_ne_nil (Text.lines_ne_nil rest)]

theorem findSome?_pieces [Host] (p : Child) :
    p.pieces.findSome? Piece.said? = ((message? p.unread).map Prod.fst).or
      (if Child.isOverlong p.unfinished then some (.error (.overlong false)) else none) := by
  unfold Child.pieces
  generalize p.unread = lines
  induction lines with
  | nil => cases Child.isOverlong p.unfinished <;> rfl
  | cons line lines ih =>
    rw [List.map_cons, List.cons_append, List.findSome?_cons, message?_cons]
    simp only [Piece.said?]
    cases read? line with
    | some said => rfl
    | none => exact ih

/-- A line of spaces, one more than can be read. -/
def padding : Text :=
  List.replicate (Child.lineLimit + 1) ' '

theorem eq_space_of_mem_padding {c : Char} (h : c ∈ padding) : c = ' ' :=
  List.eq_of_mem_replicate h

theorem feed_not_mem_padding : '\n' ∉ padding := by
  intro h
  cases eq_space_of_mem_padding h

theorem isOverlong_padding : Child.isOverlong padding = true := by
  have hspace : Char.utf8Size ' ' = 1 := rfl
  have hbytes : Text.bytes padding = Child.lineLimit + 1 := by
    rw [padding, Text.bytes_replicate, hspace, Nat.mul_one]
  rw [Child.isOverlong, hbytes]
  exact decide_eq_true (Nat.lt_succ_self _)

theorem read?_padding [Host] : read? padding = some (.error (.overlong true)) := by
  rw [read?, isOverlong_padding]
  rfl

/-- The line is blank, so a shorter one like it is passed over. -/
theorem said?_padding [Host] : said? padding = none := by
  have hblank : Text.trim padding = [] := by
    rw [Text.trim_eq_nil_iff]
    intro c hc
    rw [eq_space_of_mem_padding hc]
    rfl
  rw [said?, hblank]
  exact Json.stray_nil

end Session

namespace Script

theorem answer?_cons [Host] (line : Text) (lines : List Text) :
    answer? (line :: lines) = match Json.said? line with
      | some (.ok members) => .ok (some members)
      | some (.error fault) => .error fault
      | none => answer? lines :=
  rfl

/-- The last line among some that is a JSON object, with the lines behind it. -/
def LastObject [Host] (lines : List Text) (members : Json.Members) (after : List Text) : Prop :=
  ∃ before line, lines = before ++ line :: after ∧ Json.read line = .ok (.obj members) ∧
    ∀ l ∈ after, ∀ ms, Json.read l ≠ .ok (.obj ms)

/-- A line that goes beyond what can be read. -/
def Unreadable [Host] (line : Text) : Prop :=
  ∃ fault, Json.said? line = some (.error fault)

theorem stray_of_readable [Host] {line : Text} (hobj : ∀ ms, Json.read line ≠ .ok (.obj ms))
    (hread : ¬ Unreadable line) : Json.Stray line := by
  cases hsaid : Json.said? line with
  | none => exact hsaid
  | some said =>
    cases said with
    | ok members => exact absurd (Json.said?_eq_ok_iff.mp hsaid) (hobj members)
    | error fault => exact absurd ⟨fault, hsaid⟩ hread

/-- The search from the end finds the last object, unless a line behind it cannot be read. -/
theorem answer?_reverse_eq_some_iff [Host] {lines : List Text} {members : Json.Members} :
    answer? lines.reverse = .ok (some members) ↔
      ∃ after, LastObject lines members after ∧ ∀ l ∈ after, ¬ Unreadable l := by
  induction lines using List.reverseRecOn with
  | nil => simp [answer?, LastObject]
  | append_singleton lines line ih =>
    rw [List.reverse_append, List.reverse_singleton, List.singleton_append, answer?_cons]
    constructor
    · intro h
      cases hsaid : Json.said? line with
      | none =>
        rw [hsaid] at h
        obtain ⟨after, ⟨before, l, rfl, hl, hafter⟩, hread⟩ := ih.mp h
        have hstray := Json.stray_iff.mp hsaid
        refine ⟨after ++ [line], ⟨before, l, by simp, hl, ?_⟩, ?_⟩
        · intro l' hl' ms hms
          obtain hmem | rfl := by simpa using hl'
          · exact hafter l' hmem ms hms
          · have := Json.said?_eq_ok_iff.mpr hms
            simp [this] at hsaid
        · intro l' hl'
          obtain hmem | rfl := by simpa using hl'
          · exact hread l' hmem
          · rintro ⟨fault, hfault⟩
            simp [hfault] at hsaid
      | some said =>
        cases said with
        | ok found =>
          simp only [hsaid, Except.ok.injEq, Option.some.injEq] at h
          subst h
          exact ⟨[], ⟨lines, line, rfl, Json.said?_eq_ok_iff.mp hsaid, by simp⟩, by simp⟩
        | error fault => simp [hsaid] at h
    · rintro ⟨after, ⟨before, l, heq, hl, hafter⟩, hread⟩
      induction after using List.reverseRecOn with
      | nil =>
        obtain ⟨rfl, rfl⟩ := by simpa using List.append_inj' heq rfl
        rw [Json.said?_eq_ok_iff.mpr hl]
      | append_singleton after last _ =>
        have hsplit : lines = before ++ l :: after ∧ line = last := by
          have : lines ++ [line] = (before ++ l :: after) ++ [last] := by simpa using heq
          simpa using List.append_inj' this rfl
        obtain ⟨rfl, rfl⟩ := hsplit
        have hmem : line ∈ after ++ [line] := by simp
        have hstray : Json.said? line = none :=
          stray_of_readable (hafter line hmem) (hread line hmem)
        rw [hstray]
        refine ih.mpr ⟨after, ⟨before, l, rfl, hl, ?_⟩, ?_⟩
        · intro l' hl'
          exact hafter l' (List.mem_append_left _ hl')
        · intro l' hl'
          exact hread l' (List.mem_append_left _ hl')

theorem reply_eq_ok_iff [Host] {executable : Text} {ending : ScriptEnd} {answer : Json.Members} :
    reply executable ending = .ok answer ↔ ∃ output errors exit after,
      ending = .finished output errors exit ∧
      LastObject (splitLines output) answer after ∧
      ∀ l ∈ after, ¬ Unreadable l := by
  cases ending with
  | refused reason => simp [reply]
  | undecodable output fault => simp [reply]
  | finished output errors exit =>
    have hlast := @answer?_reverse_eq_some_iff _ (splitLines output) answer
    simp only [reply]
    split
    · rename_i fault hfault
      rw [hfault] at hlast
      simpa using hlast
    · rename_i members hmembers
      rw [hmembers] at hlast
      simpa using hlast
    · rename_i hnone
      rw [hnone] at hlast
      simpa using hlast

theorem lastObject_unique [Host] {lines after after' : List Text} {answer answer' : Json.Members}
    (h : LastObject lines answer after) (h' : LastObject lines answer' after') :
    answer = answer' ∧ after = after' := by
  obtain ⟨before, line, rfl, hline, hafter⟩ := h
  obtain ⟨before', line', heq, hline', hafter'⟩ := h'
  obtain ⟨mid, h⟩ | ⟨mid, h⟩ := List.append_eq_append_iff.mp heq
  · obtain ⟨-, h⟩ := h
    cases mid with
    | nil =>
      obtain ⟨rfl, rfl⟩ := by simpa using h
      rw [hline] at hline'
      exact ⟨by simpa using hline', rfl⟩
    | cons l mid =>
      obtain ⟨rfl, rfl⟩ := by simpa using h
      exact absurd hline' (hafter line' (by simp) answer')
  · obtain ⟨-, h⟩ := h
    cases mid with
    | nil =>
      obtain ⟨rfl, rfl⟩ := by simpa using h
      rw [hline] at hline'
      exact ⟨by simpa using hline', rfl⟩
    | cons l mid =>
      obtain ⟨rfl, rfl⟩ := by simpa using h
      exact absurd hline (hafter' line (by simp) answer)

end Script

end FragmentLint
