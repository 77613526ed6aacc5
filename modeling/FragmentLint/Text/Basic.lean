/-!
# Texts

A text is the list of its characters, so lengths, offsets and cuts count characters
and a proof can take a text apart by cases. String literals are read as texts. The
module also holds what the rest of the library does to texts as a whole: taking off a
given beginning, looking for a text inside another, replacing, cutting at line feeds
and slicing.
-/

namespace FragmentLint

/-- A text is the list of its characters. -/
abbrev Text := List Char

instance : Coe String Text := ⟨String.toList⟩

namespace Text

def ofNat (n : Nat) : Text :=
  Nat.toDigits 10 n

/-- The decimal digits of an integer, behind a minus sign if it is negative. -/
def ofInt : Int → Text
  | .ofNat n => ofNat n
  | .negSucc n => '-' :: ofNat (n + 1)

/-- The rest of a text behind a given beginning, if it begins so. -/
def after? : Text → Text → Option Text
  | [], t => some t
  | _ :: _, [] => none
  | p :: ps, c :: t => if p = c then after? ps t else none

theorem after?_eq_some_iff {p t rest : Text} : after? p t = some rest ↔ t = p ++ rest := by
  induction p generalizing t with
  | nil => simp [after?]
  | cons a p ih =>
    cases t with
    | nil => simp [after?]
    | cons c t =>
      by_cases h : a = c
      · simp [after?, h, ih]
      · simp [after?, h, Ne.symm h]

theorem length_of_after? {p t rest : Text} (h : after? p t = some rest) :
    t.length = p.length + rest.length := by
  rw [after?_eq_some_iff.1 h, List.length_append]

def startsWith (t p : Text) : Bool :=
  (after? p t).isSome

def occursIn (p : Text) : Text → Bool
  | [] => startsWith [] p
  | c :: t => startsWith (c :: t) p || occursIn p t

/-- Every occurrence of a text replaced by another, found from left to right without
overlap. The text to replace has a first character, so every occurrence is shorter than
what it was found in. -/
def replace (first : Char) (others new : Text) : Text → Text
  | [] => []
  | c :: t =>
    match _found : after? (first :: others) (c :: t) with
    | some rest => new ++ replace first others new rest
    | none => c :: replace first others new t
termination_by t => t.length
decreasing_by
  · have := length_of_after? _found
    simp only [List.length_cons] at this ⊢
    omega
  · simp

/-- The lines of a text: what stands between its line feeds. There is always at least
one, and it is empty if the text is. -/
def lines : Text → List Text
  | [] => [[]]
  | c :: t => if c = '\n' then [] :: lines t else (lines t).modifyHead (c :: ·)

theorem lines_ne_nil (t : Text) : lines t ≠ [] := by
  cases t with
  | nil => simp [lines]
  | cons c t =>
    have ih := lines_ne_nil t
    by_cases h : c = '\n'
    · simp [lines, h]
    · simpa [lines, h] using ih

/-- What stands in front of the first line feed is the first line. -/
theorem lines_append_feed {l : Text} (h : '\n' ∉ l) (t : Text) :
    lines (l ++ '\n' :: t) = l :: lines t := by
  induction l with
  | nil => simp [lines]
  | cons c l ih =>
    simp only [List.mem_cons, not_or] at h
    simp [lines, Ne.symm h.1, ih h.2]

theorem not_mem_of_mem_lines {t l : Text} (h : l ∈ lines t) : '\n' ∉ l := by
  induction t generalizing l with
  | nil =>
    obtain rfl := List.mem_singleton.mp h
    exact List.not_mem_nil
  | cons c t ih =>
    by_cases hc : c = '\n'
    · rw [lines, if_pos hc] at h
      obtain rfl | hrest := List.mem_cons.mp h
      · exact List.not_mem_nil
      · exact ih hrest
    · obtain ⟨first, others, hlines⟩ := List.exists_cons_of_ne_nil (lines_ne_nil t)
      rw [lines, if_neg hc, hlines, List.modifyHead_cons] at h
      rw [hlines] at ih
      obtain rfl | hrest := List.mem_cons.mp h
      · simp [Ne.symm hc, ih List.mem_cons_self]
      · exact ih (List.mem_cons_of_mem _ hrest)

def firstLine (t : Text) : Text :=
  t.takeWhile (· != '\n')

theorem head?_lines (t : Text) : (lines t).head? = some (firstLine t) := by
  induction t with
  | nil => rfl
  | cons c t ih =>
    by_cases h : c = '\n'
    · simp [lines, firstLine, h]
    · have hne : (c != '\n') = true := by simpa using h
      have hcons : firstLine (c :: t) = c :: firstLine t := by
        simp [firstLine, hne]
      simp [lines, h, ih, hcons]

/-- Texts one after another, with a separator between neighbours. -/
def join (separator : Text) : List Text → Text
  | [] => []
  | [t] => t
  | t :: u :: rest => t ++ separator ++ join separator (u :: rest)

theorem join_lines (t : Text) : join ['\n'] (lines t) = t := by
  induction t with
  | nil => rfl
  | cons c t ih =>
    cases hl : lines t with
    | nil => exact absurd hl (lines_ne_nil t)
    | cons l ls =>
      rw [hl] at ih
      by_cases h : c = '\n'
      · simp [lines, h, hl, join, ih]
      · rw [← ih]
        cases ls <;> simp_all [lines, join]

def newlines (t : Text) : Nat :=
  t.count '\n'

@[simp] theorem newlines_append (t u : Text) : newlines (t ++ u) = newlines t + newlines u := by
  simp [newlines]

/-- The characters from a start up to a stop. A negative stop counts from the end. -/
def slice (t : Text) (start : Nat) (stop : Int) : Text :=
  let stop : Nat := (if stop < 0 then (t.length : Int) + stop else stop).toNat
  (t.take stop).drop start

def nonempty? (t : Text) : Option Text :=
  if t = [] then none else some t

end Text

end FragmentLint
