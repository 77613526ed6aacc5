import FragmentLint.Json.Basic
import FragmentLint.Text.Digit
import FragmentLint.Text.Units

/-!
# Reading JSON

The reader is strict: no control character inside quotes, no comma too many, nothing
behind the value but spaces, tabs and line ends. It also takes the names of the
floating-point values that are no finite numbers. Of several members of one name the last
value counts, in the place of the first. A whole number beyond the digit limit and brackets
nested too deep are refused in ways of their own, since such a text may be JSON all the
same.

The recursion is bounded by the length of the text: every value, item and member takes at
least one character. How deep brackets may be nested is up to the host, and to what it is doing
when it reads.
-/

namespace FragmentLint

/-- Where the library runs. -/
class Host where
  /-- How deep brackets may be nested. -/
  nestingLimit : Nat
  two_le_nestingLimit : 2 ≤ nestingLimit

@[simp] theorem Host.nestingLimit_ne_zero [Host] : Host.nestingLimit ≠ 0 := by
  have := Host.two_le_nestingLimit
  omega

namespace Host.Usual

/-- A host with a thousand frames, of which some are in use. -/
scoped instance usual : Host where
  nestingLimit := 980
  two_le_nestingLimit := by decide

end Host.Usual

namespace Json

/-- Why a text is not read as a JSON value. -/
inductive ReadFault where
  /-- The text is not JSON. -/
  | malformed
  /-- A whole number has more digits than the limit allows. -/
  | tooManyDigits (count : Nat)
  /-- Brackets are nested deeper than the limit allows; the last one opens an object or an
  array. -/
  | tooDeep (opensObject : Bool)
  deriving DecidableEq, Repr

/-- Whether a character may stand between the parts of a value. -/
def isSpace (c : Char) : Bool :=
  c = ' ' || c = '\t' || c = '\n' || c = '\r'

def skipSpace (t : Text) : Text :=
  t.dropWhile isSpace

/-- Four hexadecimal digits at the start of a text. -/
def unit? : Text → Option (Nat × Text)
  | a :: b :: c :: d :: t => do
    let a ← Text.hexValue? a
    let b ← Text.hexValue? b
    let c ← Text.hexValue? c
    let d ← Text.hexValue? d
    some (((a * 16 + b) * 16 + c) * 16 + d, t)
  | _ => none

/-- The character that an escape stands for, and the text behind it. The backslash has been
read. A unit that is half of a pair is read together with the other half if that follows. -/
def escape? : Text → Option (Char × Text)
  | '"' :: t => some ('"', t)
  | '\\' :: t => some ('\\', t)
  | '/' :: t => some ('/', t)
  | 'b' :: t => some (Char.ofNat 8, t)
  | 'f' :: t => some (Char.ofNat 12, t)
  | 'n' :: t => some ('\n', t)
  | 'r' :: t => some ('\r', t)
  | 't' :: t => some ('\t', t)
  | 'u' :: t => do
    let (high, t) ← unit? t
    if 0xd800 ≤ high ∧ high < 0xdc00 then
      match t with
      | '\\' :: 'u' :: t' => match unit? t' with
        | some (low, rest) =>
          if 0xdc00 ≤ low ∧ low < 0xe000 then some (Text.ofSurrogates high low, rest)
          else some (Text.loneHalf high, t)
        | none => some (Text.loneHalf high, t)
      | _ => some (Text.loneHalf high, t)
    else if 0xdc00 ≤ high ∧ high < 0xe000 then some (Text.loneHalf high, t)
    else some (Char.ofNat high, t)
  | _ => none

theorem length_of_unit? {t rest : Text} {n : Nat} (h : unit? t = some (n, rest)) :
    rest.length < t.length := by
  match t with
  | a :: b :: c :: d :: t =>
    simp only [unit?, Option.bind_eq_bind, Option.bind_eq_some_iff, Option.some.injEq,
      Prod.mk.injEq] at h
    obtain ⟨_, -, _, -, _, -, _, -, -, rfl⟩ := h
    simp only [List.length_cons]
    omega
  | [] | [_] | [_, _] | [_, _, _] => simp [unit?] at h

theorem length_of_escape? {t rest : Text} {c : Char} (h : escape? t = some (c, rest)) :
    rest.length < t.length := by
  unfold escape? at h
  split at h
  all_goals try
    simp only [Option.some.injEq, Prod.mk.injEq] at h
    obtain ⟨-, rfl⟩ := h
    simp
  · rename_i t
    cases hu : unit? t with
    | none => simp [hu] at h
    | some p =>
      obtain ⟨high, u⟩ := p
      have hlen := length_of_unit? hu
      simp only [hu, Option.bind_eq_bind, Option.bind_some] at h
      split at h
      · split at h
        · rename_i t'
          cases hu' : unit? t' with
          | none =>
            simp only [hu', Option.some.injEq, Prod.mk.injEq] at h
            obtain ⟨-, rfl⟩ := h
            simp only [List.length_cons] at hlen ⊢
            omega
          | some p' =>
            obtain ⟨low, u'⟩ := p'
            have hlen' := length_of_unit? hu'
            simp only [hu'] at h
            split at h
            all_goals
              simp only [Option.some.injEq, Prod.mk.injEq] at h
              obtain ⟨-, rfl⟩ := h
              simp only [List.length_cons] at hlen ⊢
              omega
        · simp only [Option.some.injEq, Prod.mk.injEq] at h
          obtain ⟨-, rfl⟩ := h
          simp only [List.length_cons]
          omega
      · split at h
        all_goals
          simp only [Option.some.injEq, Prod.mk.injEq] at h
          obtain ⟨-, rfl⟩ := h
          simp only [List.length_cons]
          omega
  · cases h

/-- The text up to the closing quote, and what stands behind it. -/
def quotedBody? : Text → Option (Text × Text)
  | [] => none
  | c :: t =>
    if c = '"' then some ([], t)
    else if c = '\\' then
      match _found : escape? t with
      | none => none
      | some (d, rest) => (quotedBody? rest).map fun (body, rest) => (d :: body, rest)
    else if c.toNat < 0x20 then none
    else (quotedBody? t).map fun (body, rest) => (c :: body, rest)
termination_by t => t.length
decreasing_by
  · have := length_of_escape? _found
    simp only [List.length_cons]
    omega
  · simp

/-- The digits at the start of a text, and what stands behind them. -/
def digits (t : Text) : Text × Text :=
  (t.takeWhile Char.isDigit, t.dropWhile Char.isDigit)

/-- A point and the digits behind it, if the text starts so. -/
def fraction? : Text → Option (Text × Text)
  | '.' :: t => match digits t with
    | ([], _) => none
    | found => some found
  | _ => none

/-- The exponent at the start of a text, if the text starts so. -/
def exponent? : Text → Option (Int × Text)
  | c :: t =>
    if c = 'e' || c = 'E' then
      let (negative, t) : Bool × Text := match t with
        | '-' :: t => (true, t)
        | '+' :: t => (false, t)
        | t => (false, t)
      match digits t with
      | ([], _) => none
      | (ds, rest) =>
        let n : Int := Text.digitsValue ds
        some (if negative then -n else n, rest)
    else none
  | [] => none

def unsigned (negative : Bool) (t : Text) : Except ReadFault (Json × Text) :=
  let (whole, rest) : Text × Text := match t with
    | '0' :: t => (['0'], t)
    | t => digits t
  if whole = [] then .error .malformed
  else
    let (fraction, rest) := (fraction? rest).getD ([], rest)
    let (exponent, rest') := ((exponent? rest).map fun (e, r) => (some e, r)).getD (none, rest)
    if fraction = [] && exponent = none then
      match Text.readDigits whole with
      | .ok n => .ok (.num (.int (if negative then -(n : Int) else n)), rest')
      | .error count => .error (.tooManyDigits count)
    else
      let scale : Int := exponent.getD 0 - fraction.length
      .ok (.num (.real (.ofDecimal negative (Text.digitsValue (whole ++ fraction)) scale)), rest')

def words : List (Text × Json) :=
  [("null", .null), ("true", .bool true), ("false", .bool false),
   ("NaN", .num (.real .nan)), ("Infinity", .num (.real (.infinite false))),
   ("-Infinity", .num (.real (.infinite true)))]

def scalar (t : Text) : Except ReadFault (Json × Text) :=
  match words.findSome? fun (word, value) => (Text.after? word t).map (value, ·) with
  | some found => .ok found
  | none => match t with
    | '-' :: t => unsigned true t
    | t => unsigned false t

mutual

/-- A value at the start of a text, and what stands behind it. So many brackets may still be
opened within one another. -/
def value : Nat → (room : Nat) → Text → Except ReadFault (Json × Text)
  | 0, _, _ => .error .malformed
  | fuel + 1, room, t =>
    match t with
    | '"' :: t => match quotedBody? t with
      | some (body, rest) => .ok (.str body, rest)
      | none => .error .malformed
    | '[' :: t => if room = 0 then .error (.tooDeep false) else match skipSpace t with
      | ']' :: rest => .ok (.arr [], rest)
      | t => do
        let (item, t) ← value fuel (room - 1) t
        let (items, rest) ← moreItems fuel (room - 1) (skipSpace t)
        return (.arr (item :: items), rest)
    | '\x7b' :: t => if room = 0 then .error (.tooDeep true) else match skipSpace t with
      | '\x7d' :: rest => .ok (.obj [], rest)
      | t => do
        let ((name, value), t) ← member fuel (room - 1) t
        moreMembers fuel (room - 1) [(name, value)] (skipSpace t)
    | t => scalar t

def moreItems : Nat → (room : Nat) → Text → Except ReadFault (List Json × Text)
  | 0, _, _ => .error .malformed
  | fuel + 1, room, t =>
    match t with
    | ']' :: rest => .ok ([], rest)
    | ',' :: t => do
      let (item, t) ← value fuel room (skipSpace t)
      let (items, rest) ← moreItems fuel room (skipSpace t)
      return (item :: items, rest)
    | _ => .error .malformed

def member : Nat → (room : Nat) → Text → Except ReadFault ((Text × Json) × Text)
  | 0, _, _ => .error .malformed
  | fuel + 1, room, t =>
    match t with
    | '"' :: t => match quotedBody? t with
      | none => .error .malformed
      | some (name, t) => match skipSpace t with
        | ':' :: t => do
          let (value, rest) ← value fuel room (skipSpace t)
          return ((name, value), rest)
        | _ => .error .malformed
    | _ => .error .malformed

/-- The rest of an object behind one of its members; those read before are given. -/
def moreMembers : Nat → (room : Nat) → Members → Text → Except ReadFault (Json × Text)
  | 0, _, _, _ => .error .malformed
  | fuel + 1, room, read, t =>
    match t with
    | '\x7d' :: rest => .ok (.obj read, rest)
    | ',' :: t => do
      let ((name, value), t) ← member fuel room (skipSpace t)
      moreMembers fuel room (read.put name value) (skipSpace t)
    | _ => .error .malformed

end

def read [Host] (t : Text) : Except ReadFault Json :=
  match value (2 * t.length + 2) Host.nestingLimit (skipSpace t) with
  | .error fault => .error fault
  | .ok (result, rest) => if skipSpace rest = [] then .ok result else .error .malformed

end Json

end FragmentLint
