import FragmentLint.Text.Basic

/-!
# Blank characters

The blank characters are the spaces, tabs and separators that trimming takes off both
ends of a text. Characters that merely take no width, such as the zero-width space and
the byte order mark, are not blank. Where a document is laid out, the separators among the
control characters are no blanks but ordinary content.
-/

namespace FragmentLint.Text

/-- Whether trimming removes a character. -/
def isBlank (c : Char) : Bool :=
  let n := c.toNat
  (9 ≤ n && n ≤ 13) || (0x1c ≤ n && n ≤ 0x20) || n == 0x85 || n == 0xa0 || n == 0x1680 ||
    (0x2000 ≤ n && n ≤ 0x200a) || n == 0x2028 || n == 0x2029 || n == 0x202f || n == 0x205f ||
    n == 0x3000

/-- Every character that core counts as white space is blank. -/
theorem isBlank_of_isWhitespace {c : Char} (h : c.isWhitespace = true) : isBlank c = true := by
  simp only [Char.isWhitespace, Bool.or_eq_true, decide_eq_true_eq] at h
  rcases h with ((rfl | rfl) | rfl) | rfl <;> decide

/-- A text without the blank characters at its start. -/
def trimStart (t : Text) : Text :=
  t.dropWhile isBlank

/-- A text without the blank characters at its end. -/
def trimEnd (t : Text) : Text :=
  (t.reverse.dropWhile isBlank).reverse

/-- A text without the blank characters at both its ends. -/
def trim (t : Text) : Text :=
  trimEnd (trimStart t)

/-- Whether a blank counts as space in the layout of a document: it is no control character, or
it is one of those from the tab to the carriage return. -/
def isLayoutBlank (c : Char) : Bool :=
  isBlank c && !(0x1c ≤ c.toNat && c.toNat ≤ 0x1f) && c.toNat != 0x85

/-- A text of a document without the blanks of the layout at both its ends. -/
def trimLayout (t : Text) : Text :=
  ((t.dropWhile isLayoutBlank).reverse.dropWhile isLayoutBlank).reverse

@[simp] theorem trim_nil : trim [] = [] := rfl

/-- A text is what trimming takes off its start, what it leaves, and what it takes off the end. -/
theorem eq_append_trim (t : Text) :
    ∃ tail, t = t.takeWhile isBlank ++ trim t ++ tail := by
  have hend : trimEnd (trimStart t) ++ ((trimStart t).reverse.takeWhile isBlank).reverse =
      trimStart t := by
    rw [trimEnd, ← List.reverse_append, List.takeWhile_append_dropWhile, List.reverse_reverse]
  refine ⟨((trimStart t).reverse.takeWhile isBlank).reverse, ?_⟩
  rw [trim, List.append_assoc, hend, trimStart, List.takeWhile_append_dropWhile]

/-- A text is left as it is where neither its first nor its last character is blank. -/
theorem trim_of_ends {t : Text} (hfirst : ∀ c ∈ t.head?, isBlank c = false)
    (hlast : ∀ c ∈ t.getLast?, isBlank c = false) : trim t = t := by
  have hkept : ∀ u : Text, (∀ c ∈ u.head?, isBlank c = false) → u.dropWhile isBlank = u := by
    intro u hu
    cases u with
    | nil => rfl
    | cons c u => simp [hu c rfl]
  rw [trim, trimEnd, trimStart, hkept t hfirst, hkept t.reverse (by simpa using hlast),
    List.reverse_reverse]

/-- A text without blanks is left as it is. -/
theorem trim_eq_self {t : Text} (h : ∀ c ∈ t, isBlank c = false) : trim t = t :=
  trim_of_ends (fun c hc => h c (List.mem_of_head? hc)) fun c hc => h c (List.mem_of_getLast? hc)

/-- Trimming leaves nothing exactly where all is blank. -/
theorem trim_eq_nil_iff {t : Text} : trim t = [] ↔ ∀ c ∈ t, isBlank c = true := by
  have drop_nil : ∀ l : Text, l.dropWhile isBlank = [] ↔ ∀ c ∈ l, isBlank c = true := by
    intro l
    induction l with
    | nil => simp
    | cons a l ih => by_cases ha : isBlank a = true <;> simp [ha, ih]
  constructor
  · intro h
    have hrev : t.dropWhile isBlank = [] := by
      cases hd : t.dropWhile isBlank with
      | nil => rfl
      | cons a l =>
        have hb : isBlank a = false := by
          have := List.head?_dropWhile_not isBlank t
          simpa [hd] using this
        have hall := (drop_nil (t.dropWhile isBlank).reverse).1 (by
          simpa [trim, trimEnd, trimStart] using h)
        have := hall a (by simp [hd])
        rw [hb] at this
        cases this
    exact (drop_nil t).1 hrev
  · intro h
    simp [trim, trimEnd, trimStart, (drop_nil t).2 h]

end FragmentLint.Text
