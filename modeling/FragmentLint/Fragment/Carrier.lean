import FragmentLint.Fragment.Basic
import FragmentLint.Fragment.Entity
import FragmentLint.Text.Letter
import FragmentLint.Text.Word

/-!
# HTML carriers

An HTML element carries a fragment if one of its class names is a keyword. A carrier
starts at `<` and the element's name, case aside. Behind it, in front of the first `>`,
stands the word `class` with a quoted value that holds the keyword between word
boundaries; of several such attributes the last counts for which a closing tag follows.
The tag ends at the first `>` behind the value, which may itself hold one, and the body
ends at the first closing tag. Carriers are found from left to right and do not overlap.

A sighting gives a carrier's place by the line feeds above it, so the same scan serves
whatever line the scanned text starts on.
-/

namespace FragmentLint

open Text

/-- What makes a class name a keyword: a word, or a beginning with one of several endings. -/
inductive Keyword where
  | plain (word : Text)
  | oneOf (stem : Text) (endings : List Text)
  deriving DecidableEq, Repr

namespace Keyword

def words : Keyword → List Text
  | .plain word => [word]
  | .oneOf stem endings => endings.map (stem ++ ·)

def text : Keyword → Text
  | .plain word => word
  | .oneOf stem endings => stem ++ "(?:" ++ Text.join "|" endings ++ ")"

end Keyword

/-- A kind of HTML element that can carry a fragment. -/
structure Carrier where
  /-- The name of the element. -/
  element : Text
  /-- What a class name must be. -/
  keyword : Keyword
  deriving DecidableEq, Repr

/-- A carrier found in a text. -/
structure Sighting where
  /-- The number of line feeds in front of the carrier. -/
  above : Nat
  /-- The carried code, with its escapes read and trimmed. -/
  code : Text
  deriving DecidableEq, Repr

namespace Carrier

/-- Whether a character is one of the two quotes. The quotes around a value need not match. -/
def isQuote (c : Char) : Bool :=
  c = '"' || c = '\''

/-- The character in front of what stands behind a piece of a text. -/
def lastOf (before : Option Char) (piece : Text) : Option Char :=
  piece.getLast?.or before

/-- Whether one of the words stands at the start of a text between word boundaries. -/
def startsWithWord (words : List Text) (before : Option Char) (t : Text) : Bool :=
  isBoundary before t.head? && words.any fun word =>
    match afterFolded? word t with
    | some rest => isBoundary (lastOf before (t.take word.length)) rest.head?
    | none => false

/-- Whether one of the words stands somewhere in a text between word boundaries. -/
def holdsWord (words : List Text) : Option Char → Text → Bool
  | before, [] => startsWithWord words before []
  | before, c :: t => startsWithWord words before (c :: t) || holdsWord words (some c) t

/-- What stands behind a quoted value with a keyword, if a text starts with one. -/
def afterValue? (words : List Text) (t : Text) : Option Text :=
  match t with
  | [] => none
  | opening :: t =>
    match t.dropWhile (!isQuote ·) with
    | [] => none
    | closing :: rest =>
      let value := t.takeWhile (!isQuote ·) ++ [closing]
      if isQuote opening && holdsWord words (some opening) value then some rest else none

/-- What stands behind a class attribute with a keyword, if a text starts with one. -/
def afterAttribute? (words : List Text) (before : Option Char) (t : Text) : Option Text :=
  if isBoundary before t.head? then
    ((afterFolded? "class" t).bind fun t => after? "=" (trimStart t)).bind fun t =>
      afterValue? words (trimStart t)
  else none

/-- A text cut at the first place where another stands, case aside: what is in front of that
place, and what is behind the other text. -/
def cutAt? (stop : Text) : Text → Option (Text × Text)
  | [] => (afterFolded? stop []).map ([], ·)
  | c :: t => match afterFolded? stop (c :: t) with
    | some rest => some ([], rest)
    | none => (cutAt? stop t).map fun (front, rest) => (c :: front, rest)

/-- The body of a carrier and what stands behind its closing tag. The text starts inside the
opening tag, behind the class attribute. -/
def body? (k : Carrier) (t : Text) : Option (Text × Text) :=
  match t.dropWhile (· != '>') with
  | [] => none
  | _ :: t => cutAt? ("</" ++ k.element ++ ">") t

/-- The body of a carrier and what stands behind its closing tag. The text starts inside the
opening tag, behind the given character. Later attributes are tried first. -/
def inTag? (k : Carrier) (before : Option Char) : Text → Option (Text × Text)
  | [] => none
  | c :: t =>
    (if c = '>' then none else inTag? k (some c) t).or
      ((afterAttribute? k.keyword.words before (c :: t)).bind k.body?)

/-- The body of a carrier at the start of a text, and what stands behind its closing tag. -/
def match? (k : Carrier) (t : Text) : Option (Text × Text) :=
  match afterFolded? ('<' :: k.element) t with
  | none => none
  | some rest => k.inTag? (t.take (k.element.length + 1)).getLast? rest

theorem length_of_cutAt? {stop t front rest : Text} (h : cutAt? stop t = some (front, rest)) :
    rest.length ≤ t.length := by
  induction t generalizing front with
  | nil =>
    obtain ⟨r, hr, heq⟩ := Option.map_eq_some_iff.1 h
    cases heq
    have := length_of_afterFolded? hr
    omega
  | cons c t ih =>
    unfold cutAt? at h
    split at h
    · rename_i r hr
      cases h
      have := length_of_afterFolded? hr
      omega
    · obtain ⟨⟨f, r⟩, hr, heq⟩ := Option.map_eq_some_iff.1 h
      cases heq
      have := ih hr
      simp only [List.length_cons]
      omega

theorem length_of_dropWhile_le (p : Char → Bool) (t : Text) :
    (t.dropWhile p).length ≤ t.length :=
  (List.dropWhile_sublist p).length_le

theorem length_of_body? {k : Carrier} {t front rest : Text} (h : k.body? t = some (front, rest)) :
    rest.length ≤ t.length := by
  unfold body? at h
  have hd := length_of_dropWhile_le (· != '>') t
  split at h
  · cases h
  · rename_i c u hu
    have := length_of_cutAt? h
    rw [hu] at hd
    simp only [List.length_cons] at hd
    omega

theorem length_of_afterValue? {words : List Text} {t rest : Text}
    (h : afterValue? words t = some rest) : rest.length ≤ t.length := by
  unfold afterValue? at h
  split at h
  · cases h
  · rename_i opening u
    have hd := length_of_dropWhile_le (fun c => !isQuote c) u
    split at h
    · cases h
    · rename_i closing v hv
      rw [hv] at hd
      dsimp only at h
      split at h
      · cases h
        simp only [List.length_cons] at hd ⊢
        omega
      · cases h

theorem length_of_afterAttribute? {words : List Text} {before : Option Char} {t rest : Text}
    (h : afterAttribute? words before t = some rest) : rest.length ≤ t.length := by
  unfold afterAttribute? at h
  split at h
  · obtain ⟨u, hu, hv⟩ := Option.bind_eq_some_iff.1 h
    obtain ⟨w, hw, hu⟩ := Option.bind_eq_some_iff.1 hu
    have hname := length_of_afterFolded? hw
    have hsign := length_of_after? hu
    have hvalue := length_of_afterValue? hv
    have hbefore := length_of_dropWhile_le isBlank w
    have hbehind := length_of_dropWhile_le isBlank u
    simp only [trimStart] at hsign hvalue
    omega
  · cases h

theorem length_of_inTag? {k : Carrier} {before : Option Char} {t front rest : Text}
    (h : k.inTag? before t = some (front, rest)) : rest.length ≤ t.length := by
  induction t generalizing before with
  | nil => cases h
  | cons c t ih =>
    simp only [inTag?, Option.or_eq_some_iff] at h
    rcases h with h | ⟨-, h⟩
    · split at h
      · cases h
      · have := ih h
        simp only [List.length_cons]
        omega
    · obtain ⟨u, hu, hb⟩ := Option.bind_eq_some_iff.1 h
      exact Nat.le_trans (length_of_body? hb) (length_of_afterAttribute? hu)

theorem length_of_match? {k : Carrier} {t front rest : Text}
    (h : k.match? t = some (front, rest)) : rest.length < t.length := by
  unfold match? at h
  split at h
  · cases h
  · rename_i u hu
    have l₁ := length_of_inTag? h
    have l₂ := length_of_afterFolded? hu
    simp only [List.length_cons] at l₂
    omega

/-- The carriers in a text that stands below a number of line feeds. -/
def scanBelow (k : Carrier) (above : Nat) : Text → List Sighting
  | [] => []
  | c :: t =>
    match _found : k.match? (c :: t) with
    | some (body, rest) =>
      ⟨above, trim (Entity.decode body)⟩ ::
        scanBelow k (above + (newlines (c :: t) - newlines rest)) rest
    | none => scanBelow k (if c = '\n' then above + 1 else above) t
termination_by t => t.length
decreasing_by
  · exact length_of_match? _found
  · simp

def scan (k : Carrier) (t : Text) : List Sighting :=
  k.scanBelow 0 t

end Carrier

end FragmentLint
