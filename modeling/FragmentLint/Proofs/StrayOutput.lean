import FragmentLint.Proofs.Handshake
import Mathlib.Data.List.Infix

/-!
# Output that nobody asked for

Whatever else a process prints, its lines are passed over as long as they say nothing and can be
read. Two processes are compared here, one of which prints further such lines. Where these lines are
put is said of the whole output and not of single readings, so a line may fall between two requests
as well as in the midst of an answer. At every moment both processes have said the same, and a
session learns nothing else from their lines. A line that is too long is seen, even if it is blank.
If it has not ended when it is read, a session loses what is there of it; both sessions lose the
same then, and read on in the rest of the line.
-/
namespace FragmentLint

namespace Text

/-- A text with further lines in it. Each of them is put at the start or behind the end of a
line. -/
inductive Strewn (ends : Char → Bool) (kind : Text → Prop) (t : Text) : Text → Prop where
  | same : Strewn ends kind t t
  | line {before line after : Text} {c : Char} (h : Strewn ends kind t (before ++ after))
      (hplace : before.getLast?.all ends = true) (hline : ∀ d ∈ line, ends d = false)
      (hkind : kind line) (hends : ends c = true) :
      Strewn ends kind t (before ++ (line ++ c :: after))

/-- A text into which further lines are put while it grows. The last one may be there in part. -/
inductive Growing (ends : Char → Bool) (kind : Text → Prop) (t : Text) : Text → Prop where
  | whole {u : Text} (h : Strewn ends kind t u) : Growing ends kind t u
  | part {u part : Text} (h : Strewn ends kind t u) (hplace : u.getLast?.all ends = true)
      (hpart : ∀ d ∈ part, ends d = false) : Growing ends kind t (u ++ part)

/-- A text whose last line is ended, if it was not. -/
def ended (ends : Char → Bool) (t : Text) : Text :=
  if t.getLast?.all ends then t else t ++ ['\n']

def isFeed (c : Char) : Bool :=
  c = '\n'

def endedLines (t : Text) : List Text :=
  (lines t).dropLast

/-- What stands behind the last line feed. -/
def unended (t : Text) : Text :=
  ((lines t).getLast?).getD []

theorem Strewn.preserves {α : Type} {ends : Char → Bool} {kind : Text → Prop} {t u : Text}
    (f : Text → α) (h : Strewn ends kind t u)
    (hline : ∀ before line after c, before.getLast?.all ends = true →
      (∀ d ∈ line, ends d = false) → kind line → ends c = true →
      f (before ++ (line ++ c :: after)) = f (before ++ after)) : f u = f t := by
  induction h with
  | same => rfl
  | line h hplace hfree hkind hends ih =>
    rw [hline _ _ _ _ hplace hfree hkind hends]
    exact ih

/-- A line may be put in front of all others, and behind them once the last one is ended. -/
theorem Strewn.first {ends : Char → Bool} {kind : Text → Prop} {t u line : Text} {c : Char}
    (h : Strewn ends kind t u) (hline : ∀ d ∈ line, ends d = false) (hkind : kind line)
    (hends : ends c = true) : Strewn ends kind t (line ++ c :: u) := by
  have hfront : Strewn ends kind t ([] ++ u) := h
  exact .line hfront rfl hline hkind hends

theorem Strewn.last {ends : Char → Bool} {kind : Text → Prop} {t u line : Text} {c : Char}
    (h : Strewn ends kind t u) (hplace : u.getLast?.all ends = true)
    (hline : ∀ d ∈ line, ends d = false) (hkind : kind line) (hends : ends c = true) :
    Strewn ends kind t (u ++ (line ++ [c])) := by
  have hbehind : Strewn ends kind t (u ++ []) := by rwa [List.append_nil]
  exact .line hbehind hplace hline hkind hends

/-- A text that is cut where lines may be put is empty or cut behind the end of a line. -/
theorem place_cases {ends : Char → Bool} {t : Text} (h : t.getLast?.all ends = true) :
    t = [] ∨ ∃ u c, t = u ++ [c] ∧ ends c = true := by
  obtain rfl | ⟨u, c, rfl⟩ := t.eq_nil_or_concat
  · exact .inl rfl
  · exact .inr ⟨u, c, by simp, by simpa using h⟩

theorem endedLines_append_unended (t : Text) : endedLines t ++ [unended t] = lines t := by
  unfold endedLines unended
  rw [List.getLast?_eq_some_getLast (lines_ne_nil t), Option.getD_some,
    List.dropLast_append_getLast]

/-- What follows a text carries on with its unended line. -/
theorem lines_append (t u : Text) : lines (t ++ u) = endedLines t ++ lines (unended t ++ u) := by
  induction t with
  | nil => rfl
  | cons c t ih =>
    unfold endedLines unended at ih ⊢
    cases hlines : lines t with
    | nil => exact absurd hlines (lines_ne_nil t)
    | cons l ls =>
      rw [hlines] at ih
      by_cases hc : c = '\n'
      · simp [lines, hc, hlines, ih]
      · cases ls with
        | nil => simp [lines, hc, hlines, ih]
        | cons m ls => simp [lines, hc, hlines, ih]

theorem endedLines_append (t u : Text) :
    endedLines (t ++ u) = endedLines t ++ endedLines (unended t ++ u) := by
  rw [endedLines, lines_append, List.dropLast_append_of_ne_nil (lines_ne_nil _)]
  rfl

theorem unended_append (t u : Text) : unended (t ++ u) = unended (unended t ++ u) := by
  rw [unended, lines_append, List.getLast?_append_of_ne_nil _ (lines_ne_nil _)]
  rfl

theorem lines_concat_feed (t : Text) : lines (t ++ ['\n']) = lines t ++ [[]] := by
  induction t with
  | nil => rfl
  | cons c t ih =>
    by_cases hc : c = '\n'
    · simp [lines, hc, ih]
    · cases hlines : lines t with
      | nil => exact absurd hlines (lines_ne_nil t)
      | cons l ls => simp [lines, hc, ih, hlines]

theorem endedLines_concat_feed (t : Text) : endedLines (t ++ ['\n']) = lines t := by
  rw [endedLines, lines_concat_feed, List.dropLast_concat]

theorem unended_of_place {t : Text} (h : t.getLast?.all isFeed = true) : unended t = [] := by
  obtain rfl | ⟨u, c, rfl, hc⟩ := place_cases h
  · rfl
  · obtain rfl : c = '\n' := of_decide_eq_true hc
    rw [unended, lines_concat_feed, List.getLast?_concat, Option.getD_some]

theorem endedLines_of_place {before : Text} (hplace : before.getLast?.all isFeed = true)
    (after : Text) : endedLines (before ++ after) = endedLines before ++ endedLines after := by
  rw [endedLines_append, unended_of_place hplace]
  rfl

theorem not_mem_of_free {t : Text} (h : ∀ d ∈ t, isFeed d = false) : '\n' ∉ t := by
  intro hmem
  cases h _ hmem

theorem endedLines_of_free {t : Text} (h : ∀ d ∈ t, isFeed d = false) : endedLines t = [] := by
  have hlines : lines (t ++ ['\n']) = [t] ++ [[]] := lines_append_feed (not_mem_of_free h) []
  rw [lines_concat_feed] at hlines
  rw [endedLines, List.append_cancel_right hlines]
  rfl

theorem endedLines_of_line {line : Text} (hline : ∀ d ∈ line, isFeed d = false) (after : Text) :
    endedLines (line ++ '\n' :: after) = line :: endedLines after := by
  rw [endedLines, lines_append_feed (not_mem_of_free hline),
    List.dropLast_cons_of_ne_nil (lines_ne_nil after)]
  rfl

theorem feed_not_mem_unended (t : Text) : '\n' ∉ unended t := by
  unfold unended
  rw [List.getLast?_eq_some_getLast (lines_ne_nil t), Option.getD_some]
  exact not_mem_of_mem_lines (List.getLast_mem _)

/-- What is put in front of a text and ends no line is the beginning of its first line. -/
theorem lines_behind {front : Text} (h : '\n' ∉ front) (t : Text) :
    lines (front ++ t) = (lines t).modifyHead (front ++ ·) := by
  induction front with
  | nil => cases hlines : lines t <;> simp [hlines]
  | cons c front ih =>
    obtain ⟨hc, hfront⟩ := not_or.mp (mt List.mem_cons.mpr h)
    rw [List.cons_append, lines, if_neg (Ne.symm hc), ih hfront]
    cases lines t <;> rfl

/-- That line may be all that there is, or have ended. -/
theorem behind_cases {front : Text} (h : '\n' ∉ front) (t : Text) :
    (endedLines t = [] ∧ endedLines (front ++ t) = [] ∧
      unended (front ++ t) = front ++ unended t) ∨
    ∃ line more, endedLines t = line :: more ∧ endedLines (front ++ t) = (front ++ line) :: more ∧
      unended (front ++ t) = unended t := by
  unfold endedLines unended
  rw [lines_behind h]
  cases hlines : lines t with
  | nil => exact absurd hlines (lines_ne_nil t)
  | cons line more =>
    cases more with
    | nil => exact .inl ⟨rfl, rfl, rfl⟩
    | cons next more => exact .inr ⟨line, _, rfl, rfl, by simp⟩

/-- A text without line feeds is one line, which has not ended. -/
theorem unended_of_free {t : Text} (h : '\n' ∉ t) : unended t = t := by
  obtain ⟨-, -, hunended⟩ | ⟨line, more, hlines, -⟩ := behind_cases h []
  · rw [List.append_nil] at hunended
    rw [hunended]
    exact List.append_nil t
  · cases hlines

end Text

namespace Session

open Text

/-- The lines of a session's output that say something. -/
def kept [Host] (lines : List Text) : List Text :=
  lines.filter fun line => (read? line).isSome

theorem kept_append [Host] (lines more : List Text) :
    kept (lines ++ more) = kept lines ++ kept more :=
  List.filter_append ..

theorem kept_cons_of_stray [Host] {line : Text} (h : Stray line) (lines : List Text) :
    kept (line :: lines) = kept lines := by
  have hnone : read? line = none := h
  exact List.filter_cons_of_neg (by simp [hnone])

/-- A line that is too long is a fault. -/
theorem kept_cons_of_overlong [Host] {line : Text} (h : Child.isOverlong line = true)
    (lines : List Text) : kept (line :: lines) = line :: kept lines := by
  have hfault : read? line = some (.error (.overlong true)) := if_pos h
  exact List.filter_cons_of_pos (by simp [hfault])

theorem stray_nil [Host] : Stray [] :=
  stray_iff.mpr ⟨Child.isOverlong_nil, Json.stray_nil⟩

/-- The output of a session in which lines were put that say nothing says the same. -/
theorem kept_strewn [Host] {t u : Text} (h : Strewn isFeed Stray t u) :
    kept (endedLines u) = kept (endedLines t) := by
  refine h.preserves (fun v => kept (endedLines v)) ?_
  intro before line after c hplace hline hkind hends
  obtain rfl : c = '\n' := of_decide_eq_true hends
  simp only [endedLines_of_place hplace, endedLines_of_line hline, kept_append,
    kept_cons_of_stray hkind]

theorem kept_growing [Host] {t u : Text} (h : Growing isFeed Stray t u) :
    kept (endedLines u) = kept (endedLines t) := by
  cases h with
  | whole h => exact kept_strewn h
  | part h hplace hpart =>
    rw [endedLines_of_place hplace, endedLines_of_free hpart, List.append_nil]
    exact kept_strewn h

/-- When the last line of an output is ended, what it says counts too. -/
theorem kept_ended [Host] (t : Text) : kept (endedLines (ended isFeed t)) =
    kept (endedLines t ++ (nonempty? (unended t)).toList) := by
  by_cases hplace : t.getLast?.all isFeed = true
  · simp [ended, hplace, unended_of_place hplace, nonempty?]
  · have hended : ended isFeed t = t ++ ['\n'] := if_neg hplace
    rw [hended, endedLines_concat_feed, ← endedLines_append_unended, kept_append, kept_append]
    by_cases hempty : unended t = []
    · simp [hempty, nonempty?, kept_cons_of_stray stray_nil]
    · simp [nonempty?, hempty]

/-- What a session may have lost of a line that had not ended: nothing, or more than can be read. -/
def Lost (front : Text) : Prop :=
  front = [] ∨ Child.isOverlong front = true

/-- Two lines that have not ended are the same if one of them is too long. -/
def Alike (t u : Text) : Prop :=
  Child.isOverlong t = true ∨ Child.isOverlong u = true → u = t

theorem Alike.isOverlong_eq {t u : Text} (h : Alike t u) :
    Child.isOverlong u = Child.isOverlong t := by
  refine Bool.eq_iff_iff.mpr ⟨fun hu => ?_, fun ht => ?_⟩
  · rwa [h (.inr hu)] at hu
  · rwa [h (.inl ht)]

theorem Alike.behind {front t u : Text} (h : Alike (front ++ t) (front ++ u)) : Alike t u := by
  intro hlong
  refine List.append_cancel_left (h (hlong.imp ?_ ?_)) <;>
    exact fun hlong => Child.isOverlong_append_right hlong front

/-- The lines that there are to read of an output whose process has ended. The last one is not
among them if it is too long. -/
def linesAtEnd (t : Text) : List Text :=
  endedLines t ++
    if Child.isOverlong (unended t) then [] else (nonempty? (unended t)).toList

section Behind

variable {front t u : Text}

theorem unended_suffix (hfree : '\n' ∉ front) (t : Text) :
    ∃ before, unended (front ++ t) = before ++ unended t := by
  obtain ⟨-, -, ht⟩ | ⟨-, -, -, -, ht⟩ := behind_cases hfree t
  · exact ⟨front, ht⟩
  · exact ⟨[], ht⟩

/-- Two outputs that say the same behind the loss of a line say the same without it, and the lines
that have not ended have the same loss. -/
theorem kept_behind [Host] (hfree : '\n' ∉ front) (hlost : Lost front)
    (h : kept (endedLines (front ++ u)) = kept (endedLines (front ++ t))) :
    kept (endedLines u) = kept (endedLines t) ∧ ∃ front', Lost front' ∧
      unended (front ++ t) = front' ++ unended t ∧ unended (front ++ u) = front' ++ unended u := by
  obtain rfl | hlong := hlost
  · exact ⟨h, [], .inl rfl, rfl, rfl⟩
  have hseen : ∀ line more, kept ((front ++ line) :: more) = (front ++ line) :: kept more :=
    fun line => kept_cons_of_overlong (Child.isOverlong_append_left hlong line)
  obtain ⟨ht, hfront, htail⟩ | ⟨line, more, ht, hfront, htail⟩ := behind_cases hfree t <;>
    obtain ⟨hu, hfront', htail'⟩ | ⟨line', more', hu, hfront', htail'⟩ := behind_cases hfree u <;>
    rw [hfront, hfront'] at h
  · exact ⟨by rw [ht, hu], front, .inr hlong, htail, htail'⟩
  · rw [hseen] at h
    cases h
  · rw [hseen] at h
    cases h
  · rw [hseen, hseen] at h
    obtain ⟨hline, hmore⟩ := List.cons.inj h
    obtain rfl := List.append_cancel_left hline
    refine ⟨?_, [], .inl rfl, htail, htail'⟩
    rw [ht, hu, ← List.singleton_append, kept_append, hmore, ← kept_append]
    rfl

theorem ended_behind (hfree : '\n' ∉ front) (hlost : Lost front)
    (hshort : Child.isOverlong (unended (front ++ t)) = false) :
    ended isFeed (front ++ t) = front ++ ended isFeed t := by
  cases t with
  | nil =>
    obtain rfl | hlong := hlost
    · rfl
    · rw [List.append_nil, unended_of_free hfree, hlong] at hshort
      cases hshort
  | cons c t =>
    unfold ended
    rw [List.getLast?_append_of_ne_nil _ (List.cons_ne_nil c t)]
    split
    · rfl
    · exact List.append_assoc ..

/-- The same holds of the outputs of two processes that end there. -/
theorem kept_linesAtEnd [Host] (hfree : '\n' ∉ front) (hlost : Lost front)
    (halike : Alike (unended (front ++ t)) (unended (front ++ u)))
    (h : kept (endedLines (ended isFeed (front ++ u))) =
      kept (endedLines (ended isFeed (front ++ t)))) :
    kept (linesAtEnd u) = kept (linesAtEnd t) ∧ Alike (unended t) (unended u) := by
  by_cases hlong : Child.isOverlong (unended (front ++ t)) = true
  · -- Neither line is read at the end, so what stands in front of them says the same.
    have hsame := halike (.inl hlong)
    rw [kept_ended, kept_ended, kept_append, kept_append, hsame] at h
    obtain ⟨hkept, front', -, ht, hu⟩ := kept_behind hfree hlost (List.append_cancel_right h)
    rw [ht, hu] at hsame
    have htail := List.append_cancel_left hsame
    refine ⟨?_, fun _ => htail⟩
    rw [linesAtEnd, linesAtEnd, htail, kept_append, kept_append, hkept]
  · have hshort : Child.isOverlong (unended (front ++ t)) = false := by simpa using hlong
    have hshort' : Child.isOverlong (unended (front ++ u)) = false :=
      halike.isOverlong_eq.trans hshort
    have hread : ∀ v, Child.isOverlong (unended (front ++ v)) = false →
        Child.isOverlong (unended v) = false := by
      intro v hv
      obtain ⟨before, hbefore⟩ := unended_suffix hfree v
      rw [hbefore] at hv
      by_contra htrue
      rw [Child.isOverlong_append_right (by simpa using htrue) before] at hv
      cases hv
    rw [ended_behind hfree hlost hshort, ended_behind hfree hlost hshort'] at h
    have hkept := (kept_behind hfree hlost h).1
    rw [kept_ended, kept_ended] at hkept
    refine ⟨?_, ?_⟩
    · simpa only [linesAtEnd, hread _ hshort, hread _ hshort', Bool.false_eq_true, if_false]
        using hkept
    · rintro (htrue | htrue)
      · rw [hread _ hshort] at htrue
        cases htrue
      · rw [hread _ hshort'] at htrue
        cases htrue

end Behind

end Session

namespace Reaction

def output : Reaction → Text
  | .refuse _ => []
  | .write output _ _ => output

def exit? : Reaction → Option Int
  | .refuse _ => none
  | .write _ _ exit => exit

/-- A reaction apart from its output. -/
def muted : Reaction → Reaction
  | .refuse reason => .refuse reason
  | .write _ errors exit => .write [] errors exit

theorem exit?_muted (r : Reaction) : r.muted.exit? = r.exit? := by
  cases r <;> rfl

end Reaction

namespace Behaviour

/-- The exit code, if the process ends on the last of the lines that it has read, or at its
start. -/
def exitAt (b : Behaviour) (written : List Text) : Option Int :=
  if written = [] then b.exit else (b.react written).exit?

/-- The lines that a process may have read. It takes no line once it has ended. -/
inductive Takes (b : Behaviour) : List Text → Prop where
  | start : Takes b []
  | line {written : List Text} {line output errors : Text} {exit : Option Int}
      (h : Takes b written) (halive : b.exitAt written = none)
      (hreact : b.react (written ++ [line]) = .write output errors exit) :
      Takes b (written ++ [line])

/-- All that a process has written to its output when it has read some lines. -/
def stream (b : Behaviour) (written : List Text) : Text :=
  b.output ++ written.inits.tail.flatMap fun read => (b.react read).output

/-- The output of a process when it has read some lines. Its last line is ended if the process
ends. -/
def stdout (b : Behaviour) (written : List Text) : Text :=
  if (b.exitAt written).isSome then (b.stream written).ended Text.isFeed else b.stream written

/-- A process that does as another one does, but prints further lines that say nothing. Both leave a
line unended that is too long, or neither does. -/
structure Strewn [Host] (b c : Behaviour) : Prop where
  pid : c.pid = b.pid
  errors : c.errors = b.errors
  exit : c.exit = b.exit
  exitAtClose : c.exitAtClose = b.exitAtClose
  react : ∀ written line, b.Takes written → b.exitAt written = none →
    (c.react (written ++ [line])).muted = (b.react (written ++ [line])).muted
  stdout : ∀ written, b.Takes written →
    Text.Growing Text.isFeed Session.Stray (b.stdout written) (c.stdout written)
  alike : ∀ written, b.Takes written →
    Session.Alike (Text.unended (b.stream written)) (Text.unended (c.stream written))

theorem stream_concat (b : Behaviour) (written : List Text) (line : Text) :
    b.stream (written ++ [line]) =
      b.stream written ++ (b.react (written ++ [line])).output := by
  have htail : (written ++ [line]).inits.tail = written.inits.tail ++ [written ++ [line]] := by
    rw [List.inits_append]
    cases written <;> rfl
  rw [stream, htail]
  simp [stream]

theorem exitAt_concat (b : Behaviour) (written : List Text) (line : Text) :
    b.exitAt (written ++ [line]) = (b.react (written ++ [line])).exit? :=
  if_neg (by simp)

theorem Strewn.exitAt [Host] {b c : Behaviour} (h : b.Strewn c) {written : List Text}
    (htakes : b.Takes written) : c.exitAt written = b.exitAt written := by
  cases htakes with
  | start => exact h.exit
  | line htakes halive hreact =>
    rw [exitAt_concat, exitAt_concat, ← Reaction.exit?_muted, h.react _ _ htakes halive,
      Reaction.exit?_muted]

/-- Two such processes have said the same at every moment. -/
theorem Strewn.kept [Host] {b c : Behaviour} (h : b.Strewn c) {written : List Text}
    (htakes : b.Takes written) : Session.kept (c.stdout written).endedLines =
      Session.kept (b.stdout written).endedLines :=
  Session.kept_growing (h.stdout written htakes)

end Behaviour

/-- Two processes that have read the same lines and done the same, and that are still to be heard
saying the same. -/
structure Child.InStep [Host] (b c : Behaviour) (p q : Child) : Prop where
  left : p.behaviour = b
  right : q.behaviour = c
  written : q.written = p.written
  errors : q.errors = p.errors
  exit : q.exit = p.exit
  listened : q.listened = p.listened
  kept : Session.kept q.unread = Session.kept p.unread
  alike : Session.Alike p.unfinished q.unfinished
  /-- While they go on, the lines that have not ended are the ends of their outputs, but for what
  was lost of them. -/
  going : p.exit = none → b.Takes p.written ∧ b.exitAt p.written = none ∧
    ∃ front, Session.Lost front ∧ Text.unended (b.stream p.written) = front ++ p.unfinished ∧
      Text.unended (c.stream p.written) = front ++ q.unfinished

namespace Child

open Text

variable {b c : Behaviour}

/-- What an end changes of a process that writes: the lines that are left to read. -/
theorem emit_exit {p : Child} (halive : p.exit = none) (output errors : Text) (exit : Option Int) :
    p.emit output errors exit = { p.emit output errors none with
      unread := (p.emit output errors exit).unread
      unfinished := (p.emit output errors exit).unfinished
      exit } := by
  cases exit with
  | none => simp [emit, isAlive, halive]
  | some code =>
    simp only [emit, finish, isAlive, halive, Option.isNone_none, if_true]
    split <;> rfl

theorem exit_emit {p : Child} (halive : p.exit = none) (output errors : Text)
    (exit : Option Int) : (p.emit output errors exit).exit = exit := by
  rw [emit_exit halive]

theorem behaviour_emit {p : Child} (halive : p.exit = none) (output errors : Text)
    (exit : Option Int) : (p.emit output errors exit).behaviour = p.behaviour := by
  rw [emit_exit halive]
  simp [emit, isAlive, halive]

theorem listened_emit {p : Child} (halive : p.exit = none) (output errors : Text)
    (exit : Option Int) : (p.emit output errors exit).listened = p.listened := by
  rw [emit_exit halive]
  simp [emit, isAlive, halive]

theorem errors_emit {p : Child} (halive : p.exit = none) (output errors : Text)
    (exit : Option Int) : (p.emit output errors exit).errors = p.errors ++ errors := by
  rw [emit_exit halive]
  simp [emit, isAlive, halive]

/-- What there is to read of a process that has written more and goes on. -/
theorem emit_going {p : Child} (halive : p.exit = none) (output errors : Text) :
    (p.emit output errors none).unread = p.unread ++ endedLines (p.unfinished ++ output) ∧
    (p.emit output errors none).unfinished = unended (p.unfinished ++ output) := by
  simp [emit, isAlive, halive, endedLines, unended]

/-- What there is to read of a process that has written more and has ended then. -/
theorem emit_ended {p : Child} (halive : p.exit = none) (output errors : Text) (code : Int) :
    (p.emit output errors (some code)).unread =
      p.unread ++ Session.linesAtEnd (p.unfinished ++ output) ∧
    (p.emit output errors (some code)).unfinished =
      if isOverlong (unended (p.unfinished ++ output)) then unended (p.unfinished ++ output)
      else [] := by
  cases hlong : isOverlong (((lines (p.unfinished ++ output)).getLast?).getD []) <;>
    simp [emit, finish, isAlive, halive, hlong, Session.linesAtEnd, endedLines, unended]

/-- A process that goes on and has not yet written what it writes on the lines that it has read. -/
structure Due (b : Behaviour) (p : Child) (front stream output : Text) : Prop where
  behaviour : p.behaviour = b
  alive : p.exit = none
  unfinished : unended stream = front ++ p.unfinished
  stream : b.stream p.written = stream ++ output

section Due

variable {p : Child} {front stream output : Text}

theorem stdout_of_due (h : Due b p front stream output) :
    b.stdout p.written = if (b.exitAt p.written).isSome then (stream ++ output).ended isFeed
      else stream ++ output := by
  rw [Behaviour.stdout, h.stream]

theorem unended_of_due (h : Due b p front stream output) :
    unended (stream ++ output) = unended (front ++ (p.unfinished ++ output)) := by
  rw [unended_append, h.unfinished, List.append_assoc]

/-- What it is about to write goes on with the line that has not ended. -/
theorem kept_of_due [Host] (h : Due b p front stream output) :
    Session.kept (endedLines (stream ++ output)) = Session.kept (endedLines stream) ++
      Session.kept (endedLines (front ++ (p.unfinished ++ output))) := by
  rw [endedLines_append, h.unfinished, Session.kept_append, List.append_assoc]

theorem kept_ended_of_due [Host] (h : Due b p front stream output) :
    Session.kept (endedLines (ended isFeed (stream ++ output))) =
      Session.kept (endedLines stream) ++
        Session.kept (endedLines (ended isFeed (front ++ (p.unfinished ++ output)))) := by
  rw [Session.kept_ended, Session.kept_ended, Session.kept_append, kept_of_due h, unended_of_due h,
    Session.kept_append, List.append_assoc]

end Due

/-- Two processes in step remain so when both write. -/
theorem inStep_emit [Host] (hb : b.Strewn c) {p q : Child}
    {front stream stream' output output' : Text} (hp : Due b p front stream output)
    (hq : Due c q front stream' output') (hlost : Session.Lost front) (htakes : b.Takes p.written)
    (hwritten : q.written = p.written) (herrors : q.errors = p.errors)
    (hlistened : q.listened = p.listened)
    (hunread : Session.kept q.unread = Session.kept p.unread)
    (hstream : Session.kept stream'.endedLines = Session.kept stream.endedLines)
    (errors : Text) :
    InStep b c (p.emit output errors (b.exitAt p.written))
      (q.emit output' errors (b.exitAt p.written)) := by
  have hfree : '\n' ∉ front := fun hmem =>
    feed_not_mem_unended stream (hp.unfinished ▸ List.mem_append_left _ hmem)
  have hkept := hb.kept htakes
  rw [← hwritten, stdout_of_due hq, hwritten, stdout_of_due hp, hb.exitAt htakes] at hkept
  have halike := hb.alike _ htakes
  rw [hp.stream, ← hwritten, hq.stream, unended_of_due hp, unended_of_due hq] at halike
  have hstep : ∀ exit, exit = b.exitAt p.written →
      Session.kept (q.emit output' errors exit).unread =
        Session.kept (p.emit output errors exit).unread →
      Session.Alike (p.emit output errors exit).unfinished
        (q.emit output' errors exit).unfinished →
      (exit = none → ∃ front', Session.Lost front' ∧
        unended (stream ++ output) = front' ++ (p.emit output errors exit).unfinished ∧
        unended (stream' ++ output') = front' ++ (q.emit output' errors exit).unfinished) →
      InStep b c (p.emit output errors exit) (q.emit output' errors exit) := by
    rintro exit hexit hkept halike hgoing
    refine {
      left := (behaviour_emit hp.alive _ _ _).trans hp.behaviour
      right := (behaviour_emit hq.alive _ _ _).trans hq.behaviour
      written := ?_
      errors := ?_
      exit := ?_
      listened := ?_
      kept := hkept
      alike := halike
      going := ?_ }
    · rw [emit_written, emit_written, hwritten]
    · rw [errors_emit hp.alive, errors_emit hq.alive, herrors]
    · rw [exit_emit hp.alive, exit_emit hq.alive]
    · rw [listened_emit hp.alive, listened_emit hq.alive, hlistened]
    · intro hnone
      rw [exit_emit hp.alive] at hnone
      rw [emit_written, hp.stream, ← hwritten, hq.stream, hwritten, ← hexit]
      exact ⟨htakes, hnone, hgoing hnone⟩
  cases hexit : b.exitAt p.written with
  | none =>
    rw [hexit, Option.isSome_none, if_neg Bool.false_ne_true, if_neg Bool.false_ne_true,
      kept_of_due hp, kept_of_due hq, hstream] at hkept
    obtain ⟨hread, front', hlost', hleft, hright⟩ :=
      Session.kept_behind hfree hlost (List.append_cancel_left hkept)
    obtain ⟨hunread', hunfinished⟩ := emit_going hp.alive output errors
    obtain ⟨hunread'', hunfinished'⟩ := emit_going hq.alive output' errors
    refine hstep none hexit.symm ?_ ?_ fun _ => ⟨front', hlost', ?_, ?_⟩
    · rw [hunread', hunread'', Session.kept_append, Session.kept_append, hunread, hread]
    · rw [hleft, hright] at halike
      rw [hunfinished, hunfinished']
      exact halike.behind
    · rw [unended_of_due hp, hleft, hunfinished]
    · rw [unended_of_due hq, hright, hunfinished']
  | some code =>
    rw [hexit, Option.isSome_some, if_pos rfl, if_pos rfl, kept_ended_of_due hp,
      kept_ended_of_due hq, hstream] at hkept
    obtain ⟨hread, hends⟩ :=
      Session.kept_linesAtEnd hfree hlost halike (List.append_cancel_left hkept)
    obtain ⟨hunread', hunfinished⟩ := emit_ended hp.alive output errors code
    obtain ⟨hunread'', hunfinished'⟩ := emit_ended hq.alive output' errors code
    refine hstep (some code) hexit.symm ?_ ?_ nofun
    · rw [hunread', hunread'', Session.kept_append, Session.kept_append, hunread, hread]
    · rw [hunfinished, hunfinished', hends.isOverlong_eq]
      split
      · exact hends
      · exact fun _ => rfl

/-- Two processes in step take the same line for the same reason, or do not. -/
theorem InStep.write [Host] (hb : b.Strewn c) {p q : Child} (h : InStep b c p q)
    (halive : p.exit = none) (line : Text) :
    (∃ reason, p.write line = .error reason ∧ q.write line = .error reason) ∨
    ∃ p' q', p.write line = .ok p' ∧ q.write line = .ok q' ∧ InStep b c p' q' := by
  obtain ⟨htakes, hexit, front, hlost, hleft, hright⟩ := h.going halive
  have hmuted := hb.react p.written line htakes hexit
  have hp : p.behaviour = b := h.left
  have hq : q.behaviour = c := h.right
  unfold Child.write
  rw [hp, hq, h.written]
  dsimp only
  cases hreact : b.react (p.written ++ [line]) with
  | refuse reason =>
    cases hreact' : c.react (p.written ++ [line]) with
    | refuse reason' =>
      rw [hreact, hreact'] at hmuted
      obtain rfl := Reaction.refuse.inj hmuted
      exact .inl ⟨reason', rfl, rfl⟩
    | write output' errors' exit' => simp [hreact, hreact', Reaction.muted] at hmuted
  | write output errors exit =>
    cases hreact' : c.react (p.written ++ [line]) with
    | refuse reason' => simp [hreact, hreact', Reaction.muted] at hmuted
    | write output' errors' exit' =>
      rw [hreact, hreact'] at hmuted
      obtain ⟨-, rfl, rfl⟩ := Reaction.write.inj hmuted
      have htaken : b.Takes (p.written ++ [line]) := .line htakes hexit hreact
      have hend : b.exitAt (p.written ++ [line]) = exit' := by
        rw [Behaviour.exitAt_concat, hreact]
        rfl
      have hstdout := hb.kept htakes
      rw [Behaviour.stdout, Behaviour.stdout, hb.exitAt htakes, hexit] at hstdout
      have hdue : Due b { p with written := p.written ++ [line] } front (b.stream p.written)
          output :=
        ⟨hp, halive, hleft, by rw [Behaviour.stream_concat, hreact]; rfl⟩
      have hdue' : Due c { q with written := p.written ++ [line] } front (c.stream p.written)
          output' :=
        ⟨hq, h.exit.trans halive, hright, by rw [Behaviour.stream_concat, hreact']; rfl⟩
      have hstep := inStep_emit hb hdue hdue' hlost htaken rfl h.errors h.listened h.kept hstdout
        errors'
      rw [hend] at hstep
      subst hp hq
      exact .inr ⟨_, _, rfl, rfl, hstep⟩

end Child

namespace Session

/-- Two sessions over processes in step that are told the same of them. -/
structure InStep [Host] (b c : Behaviour) (s t : Session) : Prop where
  child : Child.InStep b c s.child t.child
  last : t.last = s.last
  listens : t.listens = s.listens

theorem message?_of_kept_eq_nil [Host] {lines : List Text} (h : kept lines = []) :
    message? lines = none := by
  refine message?_eq_none_iff.mpr fun line hline => ?_
  have hnot := List.filter_eq_nil_iff.mp h line hline
  exact Option.not_isSome_iff_eq_none.mp hnot

theorem message?_of_kept_eq_cons [Host] {lines rest : List Text} {line : Text}
    (h : kept lines = line :: rest) :
    ∃ said behind, read? line = some said ∧ message? lines = some (said, behind) ∧
      kept behind = rest := by
  induction lines with
  | nil => cases h
  | cons first lines ih =>
    rw [message?_cons]
    cases hsaid : read? first with
    | none =>
      rw [kept_cons_of_stray hsaid] at h
      exact ih h
    | some said =>
      have hcons : kept (first :: lines) = first :: kept lines :=
        List.filter_cons_of_pos (by simp [hsaid])
      rw [hcons] at h
      obtain ⟨rfl, rfl⟩ := List.cons.inj h
      exact ⟨said, lines, hsaid, rfl, rfl⟩

/-- How two lists of lines are read that say the same. -/
theorem message?_rel [Host] {lines lines' : List Text} (h : kept lines' = kept lines) :
    Option.Rel (fun x y => y.1 = x.1 ∧ kept y.2 = kept x.2) (message? lines)
      (message? lines') := by
  cases hlines : kept lines with
  | nil =>
    rw [hlines] at h
    rw [message?_of_kept_eq_nil hlines, message?_of_kept_eq_nil h]
    exact .none
  | cons line rest =>
    rw [hlines] at h
    obtain ⟨said, behind, hsaid, hmessage, hrest⟩ := message?_of_kept_eq_cons hlines
    obtain ⟨said', behind', hsaid', hmessage', hrest'⟩ := message?_of_kept_eq_cons h
    obtain rfl := Option.some.inj (hsaid.symm.trans hsaid')
    rw [hmessage, hmessage']
    exact .some ⟨rfl, hrest'.trans hrest.symm⟩

variable {b c : Behaviour} {s t : Session}

theorem InStep.withUnread [Host] (h : InStep b c s t) {unread unread' : List Text}
    (hkept : kept unread' = kept unread) :
    InStep b c (s.withUnread unread) (t.withUnread unread') :=
  ⟨{ h.child with kept := hkept }, h.last, h.listens⟩

/-- If what there is of a line is lost, both sessions lose the same. -/
theorem InStep.overrun [Host] (h : InStep b c s t)
    (hlong : Child.isOverlong s.child.unfinished = true) : InStep b c s.overrun t.overrun := by
  refine ⟨{ h.child with kept := rfl, alike := fun _ => rfl, going := fun halive => ?_ }, h.last,
    h.listens⟩
  obtain ⟨htakes, hexit, front, -, hleft, hright⟩ := h.child.going halive
  refine ⟨htakes, hexit, front ++ s.child.unfinished,
    .inr (Child.isOverlong_append_right hlong front), hleft.trans (List.append_nil _).symm, ?_⟩
  rw [← h.child.alike (.inl hlong)]
  exact hright.trans (List.append_nil _).symm

theorem InStep.errors [Host] (h : InStep b c s t) : t.errors = s.errors := by
  unfold Session.errors
  rw [h.listens, h.child.errors]

theorem InStep.hear? [Host] (h : InStep b c s t) :
    Option.Rel (fun x y => y.1 = x.1 ∧ InStep b c x.2 y.2) s.hear? t.hear? := by
  have hmessage := message?_rel h.child.kept
  unfold Session.hear?
  generalize message? s.child.unread = x at hmessage ⊢
  generalize message? t.child.unread = y at hmessage ⊢
  cases hmessage with
  | none =>
    dsimp only
    rw [h.child.alike.isOverlong_eq, h.child.exit, h.errors]
    cases hlong : Child.isOverlong s.child.unfinished with
    | true => exact .some ⟨rfl, h.overrun hlong⟩
    | false =>
      cases s.child.exit with
      | none => exact .none
      | some code => exact .some ⟨rfl, h.withUnread rfl⟩
  | @some x y hxy =>
    obtain ⟨said, unread⟩ := x
    obtain ⟨said', unread'⟩ := y
    obtain ⟨rfl, hunread⟩ := hxy
    cases said' with
    | ok members => exact .some ⟨rfl, h.withUnread hunread⟩
    | error fault => exact .some ⟨rfl, h.withUnread hunread⟩

/-- Two sessions in step give the same answer to a request and remain in step. -/
theorem InStep.request [Host] (hb : b.Strewn c) (h : InStep b c s t) (payload : Json.Members) :
    Option.Rel (fun x y => y.1 = x.1 ∧ InStep b c x.2 y.2) (s.request payload)
      (t.request payload) := by
  unfold Session.request
  rw [h.child.exit, h.last]
  cases hexit : s.child.exit with
  | some code => exact .some ⟨rfl, h⟩
  | none =>
    dsimp only
    obtain ⟨reason, hp, hq⟩ | ⟨p, q, hp, hq, hchild⟩ :=
      h.child.write hb hexit (requestLine payload (s.last + 1))
    · rw [hp, hq]
      exact .some ⟨rfl, h.child, rfl, h.listens⟩
    · rw [hp, hq]
      have hhear := InStep.hear? (s := { s with child := p, last := s.last + 1 })
        (t := { t with child := q, last := s.last + 1 }) ⟨hchild, rfl, h.listens⟩
      dsimp only
      generalize Session.hear? { s with child := p, last := s.last + 1 } = x at hhear ⊢
      generalize Session.hear? { t with child := q, last := s.last + 1 } = y at hhear ⊢
      cases hhear with
      | none => exact .none
      | some hxy => exact .some ⟨congrArg (answerTo (s.last + 1)) hxy.1, hxy.2⟩

theorem InStep.requests [Host] (hb : b.Strewn c) (h : InStep b c s t)
    (payloads : List Json.Members) :
    Option.Rel (fun x y => y.1 = x.1 ∧ InStep b c x.2 y.2) (s.requests payloads)
      (t.requests payloads) := by
  induction payloads generalizing s t with
  | nil => exact .some ⟨rfl, h⟩
  | cons payload payloads ih =>
    have hrequest := h.request hb payload
    unfold Session.requests
    generalize s.request payload = x at hrequest ⊢
    generalize t.request payload = y at hrequest ⊢
    cases hrequest with
    | none => exact .none
    | @some x y hxy =>
      obtain ⟨answer, s'⟩ := x
      obtain ⟨answer', t'⟩ := y
      obtain ⟨rfl, hstep⟩ := hxy
      have hrest := ih hstep
      dsimp only [Option.bind_eq_bind, Option.bind_some]
      generalize s'.requests payloads = x at hrest ⊢
      generalize t'.requests payloads = y at hrest ⊢
      cases hrest with
      | none => exact .none
      | some hxy => exact .some ⟨congrArg (answer' :: ·) hxy.1, hxy.2⟩

/-- The answers to some requests, if all of them are answered. -/
def answers [Host] (s : Session) (payloads : List Json.Members) :
    Option (List (Except Fault Json.Members)) :=
  (s.requests payloads).map Prod.fst

theorem InStep.answers [Host] (hb : b.Strewn c) (h : InStep b c s t)
    (payloads : List Json.Members) :
    t.answers payloads = s.answers payloads := by
  have hrequests := h.requests hb payloads
  unfold Session.answers
  generalize s.requests payloads = x at hrequests ⊢
  generalize t.requests payloads = y at hrequests ⊢
  cases hrequests with
  | none => rfl
  | some hxy => exact congrArg some hxy.1

/-- A process that has ended answers no request. -/
theorem answers_of_exit [Host] {s : Session} {code : Int} (h : s.child.exit = some code)
    (payloads : List Json.Members) :
    s.answers payloads = some (payloads.map fun _ => .error (.bridge (.gone code))) := by
  rw [answers, requests_of_exit h]
  rfl

/-- Two sessions that are equal in what their callers get: from connecting, what is noted then,
and the answers to all requests from then on. -/
def SameTo [Host] (x y : Except Fault Unit × Session × List Notice) : Prop :=
  y.1 = x.1 ∧ y.2.2 = x.2.2 ∧ ∀ payloads, y.2.1.answers payloads = x.2.1.answers payloads

theorem InStep.refused [Host] (hb : b.Strewn c) (h : InStep b c s t) (fault : BridgeFault) :
    SameTo (s.refused fault) (t.refused fault) := by
  have hchild := h.child
  have hcode : t.child.codeOnceClosed = s.child.codeOnceClosed := by
    unfold Child.codeOnceClosed
    rw [hchild.exit, hchild.left, hchild.right, hb.exitAtClose]
  have hnotices : t.close.2 = s.close.2 := by
    rw [close_notices, close_notices, hchild.exit, hchild.left, hchild.right, hb.exitAtClose,
      hb.pid]
  refine ⟨rfl, hnotices, fun payloads => ?_⟩
  show t.close.1.answers payloads = s.close.1.answers payloads
  rw [answers_of_exit s.exit_close, answers_of_exit t.exit_close, hcode]

theorem InStep.unready [Host] (h : InStep b c s t) {p q : Child}
    (hlistened : q.listened = p.listened)
    (timeout : Option Number) : InStep b c (s.unready p timeout) (t.unready q timeout) := by
  unfold Session.unready Child.isAlive
  rw [h.child.exit]
  split
  · exact ⟨{ h.child with listened := hlistened }, h.last, h.listens⟩
  · exact h

theorem InStep.settle [Host] (hb : b.Strewn c) (h : InStep b c s t) {p q : Child}
    (hlistened : q.listened = p.listened) (timeout : Option Number) (greeting : Greeting) :
    SameTo (Handshake.settle p timeout s greeting) (Handshake.settle q timeout t greeting) := by
  cases greeting with
  | error fault =>
    cases fault with
    | inl fault => exact h.refused hb _
    | inr fault => exact ⟨rfl, rfl, h.answers hb⟩
  | ok members =>
    unfold Handshake.settle
    dsimp only
    split
    · exact ⟨rfl, rfl, h.answers hb⟩
    · exact (h.unready hlistened timeout).refused hb _

theorem InStep.greeting? [Host] (h : InStep b c s t) (timeout : Option Number) :
    Option.Rel (fun x y => y.1 = x.1 ∧ InStep b c x.2 y.2) (s.greeting? timeout)
      (t.greeting? timeout) := by
  have hhear := h.hear?
  unfold Session.greeting?
  split
  · exact .some ⟨rfl, h⟩
  · generalize s.hear? = x at hhear ⊢
    generalize t.hear? = y at hhear ⊢
    cases hhear with
    | none =>
      cases timeout with
      | none => exact .none
      | some limit => exact .some ⟨rfl, h.withUnread rfl⟩
    | @some x y hxy =>
      obtain ⟨heard, s'⟩ := x
      obtain ⟨heard', t'⟩ := y
      obtain ⟨rfl, hstep⟩ := hxy
      cases heard' <;> exact .some ⟨rfl, hstep⟩

end Session

namespace Script

open Text

/-- What the lines of a script's output say, one after another. -/
def sayings [Host] (output : Text) : List (Except ValueFault Json.Members) :=
  (splitLines output).filterMap Json.said?

theorem splitLines_cons {c : Char} {t : Text} (h : c = '\r' → t.head? ≠ some '\n') :
    splitLines (c :: t) = if endsLine c then [] :: splitLines t
      else match splitLines t with
        | [] => [[c]]
        | l :: ls => (c :: l) :: ls := by
  have hfeedless : ∀ u, c = '\r' → t = '\n' :: u → False := by
    rintro u rfl rfl
    exact h rfl rfl
  exact splitLines.eq_3 c t hfeedless

theorem not_return {c : Char} (h : endsLine c = false) {t : Text} :
    c = '\r' → t.head? ≠ some '\n' := by
  rintro rfl
  cases h

theorem splitLines_cons_of_not_ends {c : Char} (hc : endsLine c = false) {t l : Text}
    {ls : List Text} (ht : splitLines t = l :: ls) : splitLines (c :: t) = (c :: l) :: ls := by
  rw [splitLines_cons (not_return hc), hc, ht]
  rfl

theorem splitLines_line {line : Text} (hline : ∀ d ∈ line, endsLine d = false) {c : Char}
    (hends : endsLine c = true) : splitLines (line ++ [c]) = [line] := by
  induction line with
  | nil =>
    rw [List.nil_append, splitLines_cons (by simp), if_pos hends]
    rfl
  | cons d line ih =>
    obtain ⟨hd, hline⟩ := List.forall_mem_cons.mp hline
    exact splitLines_cons_of_not_ends hd (ih hline)

end Script

namespace Behaviour

/-- A process that prints a line before anything else. -/
def heralded (b : Behaviour) (line : Text) : Behaviour :=
  { b with output := line ++ '\n' :: b.output }

end Behaviour

section

open scoped Host.Usual

end

end FragmentLint
