import FragmentLint.ValueFault
import FragmentLint.Text.Blank
import FragmentLint.Text.Units

/-!
# Positions in a text

Parsers point at a failure by an offset from the start of a text. The module turns offsets
into lines and cuts a short excerpt around one. A line feed belongs to the line that it
ends, and both ways to find a line agree on this: counting the line feeds in front of an
offset, and walking along the lines until the offset is covered. They differ only past the
end, where the walk runs off the last line.

Offsets are natural numbers. The functions that end in `At?` also take an offset from
outside, and refuse a negative one.
-/

namespace FragmentLint.Position

open Text

/-- The number of line feeds in front of an offset. An offset past the end counts as the end. -/
def lineOffset (source : Text) (offset : Nat) : Nat :=
  newlines (source.take offset)

/-- The number of line feeds in front of an offset that may be out of range. -/
def lineOffsetAt? (source : Text) (offset : Int) : Except ValueFault Nat :=
  if offset < 0 then .error (.negativePosition offset) else .ok (lineOffset source offset.toNat)

theorem lineOffsetAt?_ofNat (source : Text) (offset : Nat) :
    lineOffsetAt? source offset = .ok (lineOffset source offset) := by
  rw [lineOffsetAt?, if_neg (by omega), Int.toNat_natCast]

/-- How many lines end in front of an offset. A line covers the offsets up to the line feed
that ends it. -/
def linesBefore : List Text → Int → Nat
  | [], _ => 0
  | line :: rest, offset =>
    if offset ≤ line.length then 0 else linesBefore rest (offset - (line.length + 1)) + 1

/-- The number of the line that covers an offset, one more than that of the last line for an
offset past the end. -/
def lineAtOffset (source : Text) (offset : Int) : Nat :=
  linesBefore (lines source) offset + 1

/-- The characters around an offset, on one line: each line feed is shown as a space. -/
def context (source : Text) (offset radius : Int) : Text :=
  let start := (max 0 (offset - radius)).toNat
  let stop := min (source.length : Int) (offset + radius)
  (slice source start stop).map fun c => if c = '\n' then ' ' else c

/-- The first line of a text, without the blanks around it. -/
def firstLine (source : Text) : Text :=
  trim (Text.firstLine source)

/-- The offset in characters for an offset in code units. -/
def ofUnitsAt? (source : Text) (offset : Int) : Except ValueFault Nat :=
  if offset < 0 then .error (.negativeOffset offset) else .ok (indexOfUnits source offset.toNat)

theorem ofUnitsAt?_ofNat (source : Text) (offset : Nat) :
    ofUnitsAt? source offset = .ok (indexOfUnits source offset) := by
  rw [ofUnitsAt?, if_neg (by omega), Int.toNat_natCast]

end FragmentLint.Position
