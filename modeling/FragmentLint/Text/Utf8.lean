import FragmentLint.Text.Units

/-!
# Reading and writing UTF-8

A character is written as one byte, or as a leading byte and one to three bytes behind it.
The leading byte fixes how many, and narrows the first of them, so that no character has
two written forms and no surrogate is written. The first fault ends the reading. It is told
apart whether a byte cannot lead, whether the bytes behind it do not fit, or whether they
are missing because the input ends.

Every character can be written. Only half of a pair that stands alone has no written form.
-/

namespace FragmentLint.Text

/-- Why bytes are no UTF-8. -/
inductive Utf8Reason where
  /-- A byte that cannot lead. -/
  | badLead
  /-- A byte behind the leading one that does not fit. -/
  | badFollower
  /-- The input ends in the midst of a character. -/
  | ended
  deriving DecidableEq, Repr

structure Utf8Fault where
  reason : Utf8Reason
  /-- The place of the leading byte. -/
  position : Nat
  /-- The leading byte. -/
  lead : UInt8
  /-- The number of bytes at fault, less one. -/
  further : Nat
  deriving DecidableEq, Repr

namespace Utf8

/-- The byte at fault or the place of the bytes at fault, and the reason. -/
def message (f : Utf8Fault) : Text :=
  let place : Text :=
    if f.further = 0 then
      "byte 0x" ++ hex 2 f.lead.toNat ++ " in position " ++ ofNat f.position
    else
      "bytes in position " ++ ofNat f.position ++ "-" ++ ofNat (f.position + f.further)
  let reason : Text := match f.reason with
    | .badLead => "invalid start byte"
    | .badFollower => "invalid continuation byte"
    | .ended => "unexpected end of data"
  "'utf-8' codec can't decode " ++ place ++ ": " ++ reason

structure Lead where
  /-- The number of bytes behind it. -/
  count : Nat
  /-- The least value of the first of them. -/
  least : UInt8
  /-- The greatest value of the first of them. -/
  greatest : UInt8
  /-- What the leading byte gives to the character. -/
  bits : Nat

/-- What a byte beyond the basic alphabet asks for, if it can lead. -/
def lead? (b : UInt8) : Option Lead :=
  if b < 0xc2 then none
  else if b < 0xe0 then some ⟨1, 0x80, 0xbf, b.toNat - 0xc0⟩
  else if b < 0xf0 then
    some ⟨2, if b = 0xe0 then 0xa0 else 0x80, if b = 0xed then 0x9f else 0xbf, b.toNat - 0xe0⟩
  else if b < 0xf5 then
    some ⟨3, if b = 0xf0 then 0x90 else 0x80, if b = 0xf4 then 0x8f else 0xbf, b.toNat - 0xf0⟩
  else none

/-- The bytes that fit behind a leading byte, up to a number of them: the first between two
bounds, each other one between the bounds that hold everywhere. -/
def followers : Nat → UInt8 → UInt8 → List UInt8 → List UInt8
  | 0, _, _, _ => []
  | _, _, _, [] => []
  | n + 1, least, greatest, b :: bytes =>
    if least ≤ b && b ≤ greatest then b :: followers n 0x80 0xbf bytes else []

/-- The number of a character from the bits of its leading byte and the bytes behind it. -/
def codePoint (bits : Nat) (bytes : List UInt8) : Nat :=
  bytes.foldl (fun n b => n * 64 + (b.toNat - 0x80)) bits

/-- The text that bytes stand for, given the place of the first byte. -/
def decodeFrom (position : Nat) (bytes : List UInt8) : Except Utf8Fault Text :=
  match bytes with
  | [] => .ok []
  | b :: rest =>
    if b < 0x80 then (decodeFrom (position + 1) rest).map (Char.ofNat b.toNat :: ·)
    else match lead? b with
      | none => .error ⟨.badLead, position, b, 0⟩
      | some lead =>
        let behind := followers lead.count lead.least lead.greatest rest
        if behind.length = lead.count then
          (decodeFrom (position + 1 + lead.count) (rest.drop lead.count)).map
            (Char.ofNat (codePoint lead.bits behind) :: ·)
        else
          let reason : Utf8Reason :=
            if behind.length = rest.length then .ended else .badFollower
          .error ⟨reason, position, b, behind.length⟩
termination_by bytes.length
decreasing_by
  · simp
  · simp only [List.length_drop, List.length_cons]
    omega

def decode (bytes : List UInt8) : Except Utf8Fault Text :=
  decodeFrom 0 bytes

/-- The halves of pairs at the first place where some stand alone. -/
def halves (t : Text) : Text :=
  (t.dropWhile fun c => !isLoneHalf c).takeWhile isLoneHalf

def refusal? (t : Text) : Option Text :=
  let position := (t.takeWhile fun c => !isLoneHalf c).length
  let place : Option Text := match halves t with
    | [] => none
    | [half] =>
      some ("character '\\u" ++ hex 4 (loneUnit half) ++ "' in position " ++ ofNat position)
    | _ :: others =>
      some ("characters in position " ++ ofNat position ++ "-" ++ ofNat (position + others.length))
  place.map fun place => "'utf-8' codec can't encode " ++ place ++ ": surrogates not allowed"

theorem halves_eq_nil_iff {t : Text} : halves t = [] ↔ ∀ c ∈ t, isLoneHalf c = false := by
  induction t with
  | nil => simp [halves]
  | cons c t ih =>
    cases hc : isLoneHalf c with
    | true => simp [halves, hc]
    | false => simpa [halves, hc] using ih

/-- A text can be written exactly if no half of a pair stands alone in it. -/
theorem refusal?_eq_none_iff {t : Text} :
    refusal? t = none ↔ ∀ c ∈ t, isLoneHalf c = false := by
  rw [← halves_eq_nil_iff, refusal?]
  split <;> simp_all

example : refusal? ['a', loneHalf 0xd835] =
    some
      "'utf-8' codec can't encode character '\\ud835' in position 1: surrogates not allowed" := by
  decide +kernel

end Utf8

end FragmentLint.Text
