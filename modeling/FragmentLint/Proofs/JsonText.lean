import FragmentLint.Json.Printer
import FragmentLint.Json.Reader

/-!
# Reading back what was printed

Whatever style a value is printed in, it is read back from its text, unless its brackets are nested
too deep. Numbers are left open here: a number may stand as any numeral that denotes it, since
programs differ in how they write the same one. Each kind of value has its lemma, which says what
the reader makes of the text and leaves what stands behind it; the brackets put them together.
-/
namespace FragmentLint.Json

theorem unit?_hex {n : Nat} (h : n < 0x10000) (t : Text) :
    unit? (Text.hex 4 n ++ t) = some (n, t) := by
  have hdigit : ∀ m, Text.hexValue? (Nat.digitChar (m % 16)) = some (m % 16) := fun m =>
    Text.hexValue?_digitChar (Nat.mod_lt _ (by decide))
  have hvalue : ((n / 16 / 16 / 16 % 16 * 16 + n / 16 / 16 % 16) * 16 + n / 16 % 16) * 16 +
      n % 16 = n := by omega
  simp [Text.hex, unit?, hdigit, hvalue]

theorem toNat_cases (c : Char) : c.toNat < 0xd800 ∨ 0xdfff < c.toNat ∧ c.toNat < 0x110000 :=
  c.valid

/-- A character of the first 65536 code points by its unit. -/
theorem escape?_unit {c : Char} (h : c.toNat < 0x10000) (t : Text) :
    escape? ('u' :: (Text.hex 4 c.toNat ++ t)) = some (c, t) := by
  have hvalid := toNat_cases c
  have hhigh : ¬ (0xd800 ≤ c.toNat ∧ c.toNat < 0xdc00) := by omega
  have hlow : ¬ (0xdc00 ≤ c.toNat ∧ c.toNat < 0xe000) := by omega
  rw [escape?, unit?_hex h]
  simp [hhigh, hlow, Char.ofNat_toNat]

/-- A character beyond them by its pair of units. -/
theorem escape?_pair {c : Char} (h : 0xffff < c.toNat) (t : Text) :
    escape? ('u' :: (Text.hex 4 (Text.surrogates c).1 ++
      '\\' :: 'u' :: (Text.hex 4 (Text.surrogates c).2 ++ t))) = some (c, t) := by
  have hvalid := toNat_cases c
  obtain ⟨high, low, hpair⟩ : ∃ high low, Text.surrogates c = (high, low) := ⟨_, _, rfl⟩
  have hboth : 0xd800 + (c.toNat - 0x10000) / 0x400 = high ∧
      0xdc00 + (c.toNat - 0x10000) % 0x400 = low := by
    simpa [Text.surrogates] using hpair
  have hhigh : 0xd800 ≤ high ∧ high < 0xdc00 := by omega
  have hlow : 0xdc00 ≤ low ∧ low < 0xe000 := by omega
  have hback : Text.ofSurrogates high low = c := by
    have hsum : 0x10000 + (high - 0xd800) * 0x400 + (low - 0xdc00) = c.toNat := by omega
    rw [Text.ofSurrogates, hsum, Char.ofNat_toNat]
  rw [hpair, escape?, unit?_hex (by omega)]
  simp [hhigh, unit?_hex (show low < 0x10000 by omega), hlow, hback]

theorem quotedBody?_escape {t rest : Text} {c : Char} (h : escape? t = some (c, rest)) :
    quotedBody? ('\\' :: t) = (quotedBody? rest).map fun (body, rest) => (c :: body, rest) := by
  rw [quotedBody?]
  simp only [Char.reduceEq, if_false, if_true]
  split
  · rename_i hnone
    rw [h] at hnone
    cases hnone
  · rename_i d rest' hsome
    rw [h] at hsome
    obtain ⟨rfl, rfl⟩ := Prod.mk.inj (Option.some.inj hsome)
    rfl

theorem quotedBody?_plain {c : Char} (hquote : c ≠ '"') (hslash : c ≠ '\\')
    (hplain : 0x20 ≤ c.toNat) (t : Text) :
    quotedBody? (c :: t) = (quotedBody? t).map fun (body, rest) => (c :: body, rest) := by
  rw [quotedBody?, if_neg hquote, if_neg hslash, if_neg (by omega)]

/-- Whether a character is one of the basic alphabet and no control character. -/
def Basic (c : Char) : Prop :=
  0x20 ≤ c.toNat ∧ c.toNat < 0x7f

instance : DecidablePred Basic :=
  fun _ => inferInstanceAs (Decidable (_ ∧ _))

/-- How a character may stand between quotes. -/
inductive Escapes (basicOnly : Bool) (c : Char) : Text → Prop where
  | short {d : Char} (hread : ∀ t, escape? (d :: t) = some (c, t)) (hd : Basic d)
      (hc : c.toNat < 0x7f) : Escapes basicOnly c ['\\', d]
  | unit (hc : c.toNat ≤ 0xffff) (hcontrol : basicOnly = false → c.toNat < 0x20) :
      Escapes basicOnly c (escapedUnit c.toNat)
  | pair (hc : 0xffff < c.toNat) (hbasic : basicOnly = true) :
      Escapes basicOnly c
        (escapedUnit (Text.surrogates c).1 ++ escapedUnit (Text.surrogates c).2)
  | plain (hquote : c ≠ '"') (hslash : c ≠ '\\') (hc : 0x20 ≤ c.toNat) : Escapes basicOnly c [c]

theorem escapes (basicOnly : Bool) (c : Char) :
    Escapes basicOnly c (escapedChar basicOnly c) := by
  have hshort : ∀ d e : Char, c = e → (∀ t, escape? (d :: t) = some (e, t)) → Basic d →
      e.toNat < 0x7f → Escapes basicOnly c ['\\', d] := by
    rintro d e rfl hread hd hc
    exact .short hread hd hc
  have hof : ∀ n, c.toNat = n → c = Char.ofNat n := by
    rintro n rfl
    exact (Char.ofNat_toNat c).symm
  unfold escapedChar
  by_cases hquote : c = '"'
  · rw [if_pos hquote]
    exact hshort _ _ hquote (fun _ => rfl) (by decide) (by decide)
  rw [if_neg hquote]
  by_cases hslash : c = '\\'
  · rw [if_pos hslash]
    exact hshort _ _ hslash (fun _ => rfl) (by decide) (by decide)
  rw [if_neg hslash]
  by_cases hfeed : c = '\n'
  · rw [if_pos hfeed]
    exact hshort _ _ hfeed (fun _ => rfl) (by decide) (by decide)
  rw [if_neg hfeed]
  by_cases hreturn : c = '\r'
  · rw [if_pos hreturn]
    exact hshort _ _ hreturn (fun _ => rfl) (by decide) (by decide)
  rw [if_neg hreturn]
  by_cases htab : c = '\t'
  · rw [if_pos htab]
    exact hshort _ _ htab (fun _ => rfl) (by decide) (by decide)
  rw [if_neg htab]
  by_cases hbell : c.toNat = 8
  · rw [if_pos hbell]
    exact hshort _ _ (hof 8 hbell) (fun _ => rfl) (by decide) (by decide)
  rw [if_neg hbell]
  by_cases hform : c.toNat = 12
  · rw [if_pos hform]
    exact hshort _ _ (hof 12 hform) (fun _ => rfl) (by decide) (by decide)
  rw [if_neg hform]
  by_cases hcontrol : c.toNat < 0x20
  · rw [if_pos hcontrol]
    exact .unit (by omega) fun _ => hcontrol
  rw [if_neg hcontrol]
  by_cases hplain : (!basicOnly || decide (c.toNat < 0x7f)) = true
  · rw [if_pos hplain]
    exact .plain hquote hslash (by omega)
  rw [if_neg hplain]
  have hbasic : basicOnly = true := by
    cases basicOnly with
    | true => rfl
    | false => exact absurd rfl hplain
  by_cases hlow : c.toNat ≤ 0xffff
  · rw [if_pos hlow]
    exact .unit hlow fun hall => by simp [hbasic] at hall
  rw [if_neg hlow]
  exact .pair (by omega) hbasic

/-- A character between quotes is read back, whether it stands by itself or as an escape. -/
theorem quotedBody?_escapedChar (basicOnly : Bool) (c : Char) (t : Text) :
    quotedBody? (escapedChar basicOnly c ++ t) =
      (quotedBody? t).map fun (body, rest) => (c :: body, rest) := by
  have hescapes := escapes basicOnly c
  generalize escapedChar basicOnly c = u at hescapes ⊢
  cases hescapes with
  | short hread hd hc => exact quotedBody?_escape (hread t)
  | unit hc hcontrol => exact quotedBody?_escape (escape?_unit (by omega) t)
  | pair hc hbasic =>
    rw [List.append_assoc]
    exact quotedBody?_escape (escape?_pair hc t)
  | plain hquote hslash hc => exact quotedBody?_plain hquote hslash hc t

/-- A text between quotes is read back. -/
theorem quotedBody?_quoted (basicOnly : Bool) (s t : Text) :
    quotedBody? (s.flatMap (escapedChar basicOnly) ++ '"' :: t) = some (s, t) := by
  induction s with
  | nil =>
    rw [List.flatMap_nil, List.nil_append, quotedBody?]
    rfl
  | cons c s ih =>
    rw [List.flatMap_cons, List.append_assoc, quotedBody?_escapedChar, ih]
    rfl

/-- A number as it is written. The exponent has its sign in front, true for minus. -/
structure Numeral where
  negative : Bool
  whole : Text
  fraction : Text := []
  exponent : Option (Bool × Text) := none
  whole_digits : ∀ c ∈ whole, c.isDigit = true
  whole_ne_nil : whole ≠ []
  /-- A zero comes first only if it is alone. -/
  whole_lead : whole.head? = some '0' → whole = ['0']
  /-- There are no more digits than can be read. -/
  whole_length : whole.length ≤ Text.digitLimit
  fraction_digits : ∀ c ∈ fraction, c.isDigit = true
  exponent_digits : ∀ e ∈ exponent, ∀ c ∈ e.2, c.isDigit = true
  exponent_ne_nil : ∀ e ∈ exponent, e.2 ≠ []

namespace Numeral

def signText (negative : Bool) : Text :=
  if negative then ['-'] else []

def exponentText : Option (Bool × Text) → Text
  | none => []
  | some (negative, digits) => 'e' :: (if negative then '-' else '+') :: digits

def text (n : Numeral) : Text :=
  signText n.negative ++
    (n.whole ++ ((if n.fraction = [] then [] else '.' :: n.fraction) ++ exponentText n.exponent))

/-- The characters of a numeral are digits and a few marks. -/
theorem forall_mem_text (n : Numeral) {P : Char → Prop}
    (hdigit : ∀ c : Char, c.isDigit = true → P c) (hmark : ∀ c ∈ ['-', '+', '.', 'e'], P c) :
    ∀ c ∈ n.text, P c := by
  have hdigits : ∀ ds : Text, (∀ c ∈ ds, c.isDigit = true) → ∀ c ∈ ds, P c :=
    fun ds hds c hc => hdigit c (hds c hc)
  have hminus : P '-' := hmark _ (by decide)
  have hsign : ∀ c ∈ signText n.negative, P c := by
    cases n.negative <;> simp [signText, hminus]
  have hfraction : ∀ c ∈ (if n.fraction = [] then [] else '.' :: n.fraction), P c := by
    split
    · simp
    · exact List.forall_mem_cons.mpr ⟨hmark _ (by decide), hdigits _ n.fraction_digits⟩
  have hexponent : ∀ c ∈ exponentText n.exponent, P c := by
    have hds := n.exponent_digits
    cases hn : n.exponent with
    | none => simp [exponentText]
    | some e =>
      obtain ⟨negative, ds⟩ := e
      refine List.forall_mem_cons.mpr ⟨hmark _ (by decide), List.forall_mem_cons.mpr ⟨?_, ?_⟩⟩
      · cases negative
        · exact hmark _ (by decide)
        · exact hminus
      · exact hdigits ds (hds (negative, ds) hn)
  intro c hc
  simp only [text, List.mem_append] at hc
  obtain hc | hc | hc | hc := hc
  · exact hsign c hc
  · exact hdigits _ n.whole_digits c hc
  · exact hfraction c hc
  · exact hexponent c hc

def power (exponent : Bool × Text) : Int :=
  if exponent.1 then -(Text.digitsValue exponent.2 : Int) else Text.digitsValue exponent.2

/-- The number that a numeral denotes. It is a whole number if there is neither a point nor an
exponent. -/
def value (n : Numeral) : Number :=
  if n.fraction = [] && (n.exponent.map power) = none then
    .int (if n.negative then -(Text.digitsValue n.whole : Int) else Text.digitsValue n.whole)
  else
    .real (.ofDecimal n.negative (Text.digitsValue (n.whole ++ n.fraction))
      ((n.exponent.map power).getD 0 - n.fraction.length))

end Numeral

/-- A text behind a numeral does not carry it on. -/
def Ends (t : Text) : Prop :=
  ∀ c ∈ t.head?, c.isDigit = false ∧ c ≠ '.' ∧ c ≠ 'e' ∧ c ≠ 'E'

theorem digits_append {ds t : Text} (hds : ∀ c ∈ ds, c.isDigit = true)
    (ht : ∀ c ∈ t.head?, c.isDigit = false) : digits (ds ++ t) = (ds, t) := by
  have hnone : t.takeWhile Char.isDigit = [] ∧ t.dropWhile Char.isDigit = t := by
    cases t with
    | nil => exact ⟨rfl, rfl⟩
    | cons c t =>
      have hc : c.isDigit = false := ht c rfl
      simp [hc]
  rw [digits, List.takeWhile_append_of_pos hds, List.dropWhile_append_of_pos hds, hnone.1,
    hnone.2, List.append_nil]

theorem fraction?_append {fraction t : Text} (h : ∀ c ∈ fraction, c.isDigit = true)
    (ht : ∀ c ∈ t.head?, c.isDigit = false ∧ c ≠ '.') (u : Text)
    (hu : u = (if fraction = [] then [] else '.' :: fraction) ++ t) :
    (fraction? u).getD ([], u) = (fraction, t) := by
  subst hu
  cases fraction with
  | nil =>
    cases t with
    | nil => rfl
    | cons c t =>
      have hpoint : c ≠ '.' := (ht c rfl).2
      simp [fraction?, hpoint]
  | cons d fraction =>
    have hdigits := digits_append h fun c hc => (ht c hc).1
    simp only [List.cons_append] at hdigits
    simp [fraction?, hdigits]

/-- The exponent of a number, if it has one, and what stands behind it. -/
def exponentPart (t : Text) : Option Int × Text :=
  ((exponent? t).map fun (e, rest) => (some e, rest)).getD (none, t)

theorem exponentPart_append {exponent : Option (Bool × Text)}
    (h : ∀ e ∈ exponent, ∀ c ∈ e.2, c.isDigit = true) (hne : ∀ e ∈ exponent, e.2 ≠ [])
    {t : Text} (ht : Ends t) :
    exponentPart (Numeral.exponentText exponent ++ t) = (exponent.map Numeral.power, t) := by
  unfold exponentPart
  cases exponent with
  | none =>
    cases t with
    | nil => rfl
    | cons c t =>
      obtain ⟨-, -, hsmall, hcapital⟩ := ht c rfl
      simp [Numeral.exponentText, exponent?, hsmall, hcapital]
  | some e =>
    obtain ⟨negative, ds⟩ := e
    have hdigits := digits_append (h _ rfl) fun c hc => (ht c hc).1
    have hne : ds ≠ [] := hne _ rfl
    cases ds with
    | nil => exact absurd rfl hne
    | cons d ds =>
      simp only [List.cons_append] at hdigits
      cases negative <;> simp [Numeral.exponentText, Numeral.power, exponent?, hdigits]

/-- The whole digits of a number, and what stands behind them. A zero stands alone. -/
def wholeDigits : Text → Text × Text
  | '0' :: t => (['0'], t)
  | t => digits t

theorem unsigned_eq (negative : Bool) (t : Text) : unsigned negative t =
    let (whole, rest) := wholeDigits t
    if whole = [] then .error .malformed
    else
      let (fraction, rest) := (fraction? rest).getD ([], rest)
      let (exponent, rest') := exponentPart rest
      if fraction = [] && exponent = none then
        match Text.readDigits whole with
        | .ok n => .ok (.num (.int (if negative then -(n : Int) else n)), rest')
        | .error count => .error (.tooManyDigits count)
      else
        .ok (.num (.real (.ofDecimal negative (Text.digitsValue (whole ++ fraction))
          (exponent.getD 0 - fraction.length))), rest') :=
  rfl

theorem wholeDigits_append (n : Numeral) {t : Text} (ht : ∀ c ∈ t.head?, c.isDigit = false) :
    wholeDigits (n.whole ++ t) = (n.whole, t) := by
  unfold wholeDigits
  split
  · rename_i u hzero
    have hlead : n.whole = ['0'] := by
      refine n.whole_lead ?_
      obtain ⟨c, w, hw⟩ := List.exists_cons_of_ne_nil n.whole_ne_nil
      rw [hw, List.cons_append] at hzero
      rw [hw, (List.cons.inj hzero).1]
      rfl
    rw [hlead] at hzero ⊢
    rw [List.singleton_append, List.cons_inj_right] at hzero
    rw [hzero]
  · exact digits_append n.whole_digits ht

/-- What may stand behind the whole digits of a numeral does not carry them on. -/
theorem head?_behind (n : Numeral) {t : Text} (ht : Ends t) {c : Char}
    (hc : c ∈ (Numeral.exponentText n.exponent ++ t).head?) : c.isDigit = false ∧ c ≠ '.' := by
  unfold Numeral.exponentText at hc
  split at hc
  · exact ⟨(ht c hc).1, (ht c hc).2.1⟩
  · obtain rfl : 'e' = c := Option.some.inj hc
    decide

theorem unsigned_append (n : Numeral) {t : Text} (ht : Ends t) :
    unsigned n.negative (n.whole ++ ((if n.fraction = [] then [] else '.' :: n.fraction) ++
      (Numeral.exponentText n.exponent ++ t))) = .ok (.num n.value, t) := by
  have hexponent := exponentPart_append n.exponent_digits n.exponent_ne_nil ht
  have hfraction := fraction?_append n.fraction_digits (fun c => head?_behind n ht) _ rfl
  have hwhole := wholeDigits_append n (t := (if n.fraction = [] then [] else '.' :: n.fraction) ++
    (Numeral.exponentText n.exponent ++ t)) (by
      intro c hc
      split at hc
      · exact (head?_behind n ht hc).1
      · obtain rfl : '.' = c := Option.some.inj hc
        decide)
  have hread : Text.readDigits n.whole = .ok (Text.digitsValue n.whole) :=
    if_pos n.whole_length
  rw [unsigned_eq, hwhole]
  simp only [n.whole_ne_nil, if_false, hfraction, hexponent, hread]
  unfold Numeral.value
  split
  · rfl
  · rfl

/-- No word begins with a digit, and none has a digit behind its sign. -/
theorem words_of_digit {c : Char} (hc : c.isDigit = true) (sign : Bool) (t : Text) :
    words.findSome? (fun (word, value) =>
      (Text.after? word (Numeral.signText sign ++ c :: t)).map (value, ·)) = none := by
  have hne : ∀ d : Char, d.isDigit = false → ¬ d = c := by
    rintro d hd rfl
    rw [hc] at hd
    cases hd
  have hwords : ¬ 'n' = c ∧ ¬ 't' = c ∧ ¬ 'f' = c ∧ ¬ 'N' = c ∧ ¬ 'I' = c ∧ ¬ '-' = c :=
    ⟨hne _ rfl, hne _ rfl, hne _ rfl, hne _ rfl, hne _ rfl, hne _ rfl⟩
  cases sign <;> simp [words, List.findSome?, Text.after?, Numeral.signText, hwords]

/-- A numeral is read as the number that it denotes. -/
theorem scalar_append (n : Numeral) {t : Text} (ht : Ends t) :
    scalar (n.text ++ t) = .ok (.num n.value, t) := by
  have hunsigned := unsigned_append n ht
  obtain ⟨c, w, hw⟩ := List.exists_cons_of_ne_nil n.whole_ne_nil
  have hdigit : c.isDigit = true := n.whole_digits c (by simp [hw])
  have hwords := words_of_digit hdigit n.negative
    (w ++ ((if n.fraction = [] then [] else '.' :: n.fraction) ++
      (Numeral.exponentText n.exponent ++ t)))
  have hminus : c ≠ '-' := by
    rintro rfl
    cases hdigit
  unfold Numeral.text scalar
  simp only [List.append_assoc, hw, List.cons_append] at hunsigned hwords ⊢
  rw [hwords]
  cases hnegative : n.negative with
  | true =>
    rw [hnegative] at hunsigned
    exact hunsigned
  | false =>
    rw [hnegative] at hunsigned
    simp only [Numeral.signText, Bool.false_eq_true, if_false, List.nil_append]
    split
    · rename_i u hminus'
      exact absurd (List.cons.inj hminus').1 hminus
    · exact hunsigned

/-- A style in which at most spaces stand behind commas and colons. -/
structure Style.Spaced (style : Style) : Prop where
  comma : ∃ spaces, style.comma = ',' :: spaces ∧ ∀ c ∈ spaces, isSpace c = true
  colon : ∃ spaces, style.colon = ':' :: spaces ∧ ∀ c ∈ spaces, isSpace c = true

theorem Style.Spaced.length_colon {style : Style} (h : style.Spaced) : 0 < style.colon.length := by
  obtain ⟨spaces, hcolon, -⟩ := h.colon
  simp [hcolon]

theorem Style.spaced_request : Style.request.Spaced :=
  ⟨⟨[' '], rfl, by simp [isSpace]⟩, ⟨[' '], rfl, by simp [isSpace]⟩⟩

theorem Style.spaced_report : Style.report.Spaced :=
  ⟨⟨[' '], rfl, by simp [isSpace]⟩, ⟨[' '], rfl, by simp [isSpace]⟩⟩

theorem Style.spaced_reply : Style.reply.Spaced :=
  ⟨⟨[], rfl, by simp⟩, ⟨[], rfl, by simp⟩⟩

mutual

/-- The texts of a value in a style. A number stands as some numeral that denotes it, and no two
members of an object have one name. -/
inductive Printed (style : Style) : Json → Text → Prop where
  | null : Printed style .null "null"
  | yes : Printed style (.bool true) "true"
  | no : Printed style (.bool false) "false"
  | num (n : Numeral) : Printed style (.num n.value) n.text
  | str (s : Text) : Printed style (.str s) (quotedText style.basicOnly s)
  | noItems : Printed style (.arr []) ['[', ']']
  | arr {item : Json} {items : List Json} {t u : Text} (hitem : Printed style item t)
      (hitems : PrintedItems style items u) :
      Printed style (.arr (item :: items)) ('[' :: (t ++ u))
  | noMembers : Printed style (.obj []) ['\x7b', '\x7d']
  | obj {name : Text} {value : Json} {members : Members} {t u : Text}
      (hname : ∀ m ∈ members, m.1 ≠ name) (hvalue : Printed style value t)
      (hmembers : PrintedMembers style members u) :
      Printed style (.obj ((name, value) :: members))
        ('\x7b' :: (quotedText style.basicOnly name ++ (style.colon ++ (t ++ u))))

/-- The texts of the items of an array behind its first one, with the closing bracket. -/
inductive PrintedItems (style : Style) : List Json → Text → Prop where
  | done : PrintedItems style [] [']']
  | more {item : Json} {items : List Json} {t u : Text} (hitem : Printed style item t)
      (hitems : PrintedItems style items u) :
      PrintedItems style (item :: items) (style.comma ++ (t ++ u))

/-- The texts of the members of an object behind its first one, with the closing brace. -/
inductive PrintedMembers (style : Style) : Members → Text → Prop where
  | done : PrintedMembers style [] ['\x7d']
  | more {name : Text} {value : Json} {members : Members} {t u : Text}
      (hname : ∀ m ∈ members, m.1 ≠ name) (hvalue : Printed style value t)
      (hmembers : PrintedMembers style members u) :
      PrintedMembers style ((name, value) :: members)
        (style.comma ++ (quotedText style.basicOnly name ++ (style.colon ++ (t ++ u))))

end

mutual

def depth : Json → Nat
  | .arr items => depthItems items + 1
  | .obj members => depthMembers members + 1
  | _ => 0

/-- How deep the brackets of some items are nested. -/
def depthItems : List Json → Nat
  | [] => 0
  | item :: items => max (depth item) (depthItems items)

/-- How deep the brackets of the values of some members are nested. -/
def depthMembers : List (Text × Json) → Nat
  | [] => 0
  | (_, value) :: members => max (depth value) (depthMembers members)

end

/-- What the reader makes of a text that denotes something, if brackets may be nested so deep: what
it denotes, or that they are nested too deep. -/
def Gives {α : Type} (room depth : Nat) (result : Except ReadFault α) (good : α) : Prop :=
  (depth ≤ room → result = .ok good) ∧
    (room < depth → ∃ opensObject, result = .error (.tooDeep opensObject))

theorem gives_ok {α : Type} {room depth : Nat} {good : α} (h : depth ≤ room) :
    Gives room depth (.ok good) good :=
  ⟨fun _ => rfl, fun hdeep => absurd h (by omega)⟩

theorem Gives.bind {α β : Type} {room first second : Nat} {result : Except ReadFault α} {a : α}
    {next : α → Except ReadFault β} {b : β} (hfirst : Gives room first result a)
    (hsecond : Gives room second (next a) b) :
    Gives room (max first second) (result.bind next) b := by
  by_cases h : first ≤ room
  · rw [hfirst.1 h]
    exact ⟨fun _ => hsecond.1 (by omega), fun _ => hsecond.2 (by omega)⟩
  · obtain ⟨opensObject, herror⟩ := hfirst.2 (by omega)
    rw [herror]
    exact ⟨fun _ => by omega, fun _ => ⟨opensObject, rfl⟩⟩

theorem Gives.map {α β : Type} {room depth : Nat} {result : Except ReadFault α} {a : α}
    (h : Gives room depth result a) (f : α → β) : Gives room depth (result.map f) (f a) := by
  refine ⟨fun hdepth => ?_, fun hdepth => ?_⟩
  · rw [h.1 hdepth]
    rfl
  · obtain ⟨opensObject, herror⟩ := h.2 hdepth
    exact ⟨opensObject, by rw [herror]; rfl⟩

theorem skipSpace_append {spaces : Text} (h : ∀ c ∈ spaces, isSpace c = true) (t : Text) :
    skipSpace (spaces ++ t) = skipSpace t :=
  List.dropWhile_append_of_pos h

theorem skipSpace_cons {c : Char} (h : isSpace c = false) (t : Text) :
    skipSpace (c :: t) = c :: t := by
  simp [skipSpace, h]

/-- A value begins with no space and with no bracket that closes. -/
structure Opening (c : Char) : Prop where
  space : isSpace c = false
  square : c ≠ ']'
  curly : c ≠ '\x7d'

theorem opening_of_digit {c : Char} (h : c.isDigit = true) : Opening c := by
  have hne : ∀ d : Char, d.isDigit = false → c ≠ d := by
    rintro d hd rfl
    rw [h] at hd
    cases hd
  exact ⟨by simp [isSpace, hne _ (rfl : Char.isDigit ' ' = false),
    hne _ (rfl : Char.isDigit '\t' = false), hne _ (rfl : Char.isDigit '\n' = false),
    hne _ (rfl : Char.isDigit '\r' = false)], hne _ rfl, hne _ rfl⟩

theorem Numeral.opening (n : Numeral) : ∃ c t, n.text = c :: t ∧
    (c = '-' ∨ c.isDigit = true) := by
  obtain ⟨c, w, hw⟩ := List.exists_cons_of_ne_nil n.whole_ne_nil
  have hc : c.isDigit = true := n.whole_digits c (by simp [hw])
  unfold text
  rw [hw]
  cases n.negative with
  | true => exact ⟨'-', _, rfl, .inl rfl⟩
  | false => exact ⟨c, _, rfl, .inr hc⟩

variable {style : Style}

theorem Printed.opening {v : Json} {t : Text} (h : Printed style v t) :
    ∃ c u, t = c :: u ∧ Opening c := by
  cases h with
  | num n =>
    obtain ⟨c, u, hu, rfl | hdigit⟩ := n.opening
    · exact ⟨'-', u, hu, by constructor <;> decide⟩
    · exact ⟨c, u, hu, opening_of_digit hdigit⟩
  | null | yes | no | str | noItems | arr | noMembers | obj =>
    exact ⟨_, _, rfl, by constructor <;> decide⟩

/-- What comes behind a value within brackets does not carry it on, and begins with no space. -/
theorem behind_cons {c : Char} (hc : c = ',' ∨ c = ']' ∨ c = '\x7d') (t : Text) :
    Ends (c :: t) ∧ skipSpace (c :: t) = c :: t := by
  constructor
  · intro d hd
    obtain rfl : c = d := Option.some.inj hd
    obtain rfl | rfl | rfl := hc <;> decide
  · obtain rfl | rfl | rfl := hc <;> exact skipSpace_cons rfl t

theorem PrintedItems.behind (hs : style.Spaced) {items : List Json} {t : Text}
    (h : PrintedItems style items t) (rest : Text) :
    Ends (t ++ rest) ∧ skipSpace (t ++ rest) = t ++ rest := by
  obtain ⟨spaces, hcomma, -⟩ := hs.comma
  cases h with
  | done => exact behind_cons (.inr (.inl rfl)) rest
  | more =>
    rw [hcomma]
    exact behind_cons (.inl rfl) _

theorem PrintedMembers.behind (hs : style.Spaced) {members : Members} {t : Text}
    (h : PrintedMembers style members t) (rest : Text) :
    Ends (t ++ rest) ∧ skipSpace (t ++ rest) = t ++ rest := by
  obtain ⟨spaces, hcomma, -⟩ := hs.comma
  cases h with
  | done => exact behind_cons (.inr (.inr rfl)) rest
  | more =>
    rw [hcomma]
    exact behind_cons (.inl rfl) _

theorem value_eq_scalar {c : Char} (hquote : c ≠ '"') (hsquare : c ≠ '[') (hcurly : c ≠ '\x7b')
    (fuel room : Nat) (t : Text) : value (fuel + 1) room (c :: t) = scalar (c :: t) := by
  rw [value]
  · exact fun u hu => hquote (List.cons.inj hu).1
  · exact fun u hu => hsquare (List.cons.inj hu).1
  · exact fun u hu => hcurly (List.cons.inj hu).1

theorem quotedText_append (basicOnly : Bool) (s t : Text) :
    quotedText basicOnly s ++ t = '"' :: (s.flatMap (escapedChar basicOnly) ++ '"' :: t) := by
  simp [quotedText]

theorem skipSpace_quoted (basicOnly : Bool) (s t : Text) :
    skipSpace (quotedText basicOnly s ++ t) = quotedText basicOnly s ++ t := by
  rw [quotedText_append]
  exact skipSpace_cons rfl _

theorem value_quoted (basicOnly : Bool) (fuel room : Nat) (s t : Text) :
    value (fuel + 1) room (quotedText basicOnly s ++ t) = .ok (.str s, t) := by
  rw [quotedText_append, value, quotedBody?_quoted]

/-- An array that is not empty is read as its items are, the first one behind the bracket as the
others behind their commas. -/
theorem value_items {t : Text} (ht : ∀ u, skipSpace t ≠ ']' :: u) (fuel room : Nat) :
    value (fuel + 1) (room + 1) ('[' :: t) =
      (moreItems (fuel + 1) room (',' :: t)).map fun (items, rest) => (.arr items, rest) := by
  rw [value, if_neg (by omega), moreItems]
  split
  · rename_i rest hclose
    exact absurd hclose (ht rest)
  · rw [Nat.add_sub_cancel]
    cases value fuel room (skipSpace t) with
    | error fault => rfl
    | ok r =>
      obtain ⟨item, u⟩ := r
      simp only [bind, Except.bind]
      cases moreItems fuel room (skipSpace u) with
      | error fault => rfl
      | ok r => rfl

/-- An object that is not empty is read as its members are, with none read before. -/
theorem value_members {t : Text} (ht : ∀ u, skipSpace t ≠ '\x7d' :: u) (fuel room : Nat) :
    value (fuel + 1) (room + 1) ('\x7b' :: t) = moreMembers (fuel + 1) room [] (',' :: t) := by
  rw [value, if_neg (by omega), moreMembers]
  split
  · rename_i rest hclose
    exact absurd hclose (ht rest)
  · rfl

/-- A member is read by its name, and then as its value is. -/
theorem member_quoted (hs : style.Spaced) (fuel room : Nat) (name : Text) {c : Char} {t : Text}
    (hc : Opening c) :
    member (fuel + 1) room (quotedText style.basicOnly name ++ (style.colon ++ c :: t)) =
      (value fuel room (c :: t)).map fun (value, rest) => ((name, value), rest) := by
  obtain ⟨spaces, hcolon, hspaces⟩ := hs.colon
  have hskip : skipSpace (spaces ++ c :: t) = c :: t := by
    rw [skipSpace_append hspaces, skipSpace_cons hc.space]
  rw [quotedText_append, member, quotedBody?_quoted]
  simp only [hcolon, List.cons_append, skipSpace_cons (c := ':') rfl, hskip]
  cases value fuel room (c :: t) <;> rfl

/-- The items behind a comma: one of them, and the others. -/
theorem moreItems_comma (fuel room : Nat) (t : Text) : moreItems (fuel + 1) room (',' :: t) =
    (value fuel room (skipSpace t)).bind fun (item, t) =>
      (moreItems fuel room (skipSpace t)).map fun (items, rest) => (item :: items, rest) := by
  rw [moreItems]
  cases value fuel room (skipSpace t) with
  | error fault => rfl
  | ok r =>
    obtain ⟨item, u⟩ := r
    simp only [bind, Except.bind]
    cases moreItems fuel room (skipSpace u) <;> rfl

/-- The members behind a comma: one of them, and the others. -/
theorem moreMembers_comma (fuel room : Nat) (read : Members) (t : Text) :
    moreMembers (fuel + 1) room read (',' :: t) =
      (member fuel room (skipSpace t)).bind fun (m, t) =>
        moreMembers fuel room (read.put m.1 m.2) (skipSpace t) := by
  rw [moreMembers]
  rfl

/-- The reader gives a value back from its text. -/
def ReadsValue (v : Json) (t : Text) : Prop :=
  ∀ (fuel room : Nat) (rest : Text), t.length ≤ fuel → Ends rest →
    Gives room v.depth (value fuel room (t ++ rest)) (v, rest)

/-- The reader gives items back from their texts. -/
def ReadsItems (items : List Json) (t : Text) : Prop :=
  ∀ (fuel room : Nat) (rest : Text), t.length ≤ fuel →
    Gives room (depthItems items) (moreItems fuel room (t ++ rest)) (items, rest)

/-- The reader gives members back from their texts, behind others of other names. -/
def ReadsMembers (members : Members) (t : Text) : Prop :=
  ∀ (read : Members) (fuel room : Nat) (rest : Text), t.length ≤ fuel →
    (∀ m ∈ read, ∀ n ∈ members, n.1 ≠ m.1) →
    Gives room (depthMembers members) (moreMembers fuel room read (t ++ rest))
      (.obj (read ++ members), rest)

theorem put_of_new {read : Members} {name : Text} (h : ∀ m ∈ read, name ≠ m.1) (v : Json) :
    read.put name v = read ++ [(name, v)] := by
  induction read with
  | nil => rfl
  | cons m read ih =>
    obtain ⟨other, old⟩ := m
    obtain ⟨hother, hread⟩ := List.forall_mem_cons.mp h
    rw [Members.put, if_neg (Ne.symm hother), ih hread]
    rfl

/-- Brackets take up one of those that may still be opened. -/
theorem gives_nested {α : Type} {room depth : Nat} {result : Except ReadFault α} {good : α}
    (hzero : room = 0 → ∃ opensObject, result = .error (.tooDeep opensObject))
    (h : ∀ less, room = less + 1 → Gives less depth result good) :
    Gives room (depth + 1) result good := by
  cases room with
  | zero => exact ⟨fun hdepth => absurd hdepth (by omega), fun _ => hzero rfl⟩
  | succ less =>
    exact ⟨fun hdepth => (h less rfl).1 (by omega), fun hdepth => (h less rfl).2 (by omega)⟩

theorem readsValue_scalar {v : Json} {c : Char} {t : Text} (hdepth : v.depth = 0)
    (hquote : c ≠ '"') (hsquare : c ≠ '[') (hcurly : c ≠ '\x7b')
    (h : ∀ rest, Ends rest → scalar (c :: t ++ rest) = .ok (v, rest)) :
    ReadsValue v (c :: t) := by
  intro fuel room rest hfuel hrest
  obtain ⟨fuel, rfl⟩ : ∃ n, fuel = n + 1 := ⟨fuel - 1, by simp at hfuel; omega⟩
  rw [List.cons_append, value_eq_scalar hquote hsquare hcurly, ← List.cons_append, h rest hrest]
  exact gives_ok (by omega)

theorem readsValue_num (n : Numeral) : ReadsValue (.num n.value) n.text := by
  obtain ⟨c, t, ht, hc⟩ := n.opening
  have hne : ∀ d : Char, d ≠ '-' → d.isDigit = false → c ≠ d := by
    rintro d hminus hdigit rfl
    obtain rfl | hc := hc
    · exact hminus rfl
    · rw [hdigit] at hc
      cases hc
  rw [ht]
  refine readsValue_scalar (v := .num n.value) (by simp [depth]) (hne _ (by decide) rfl)
    (hne _ (by decide) rfl) (hne _ (by decide) rfl) ?_
  intro rest hrest
  rw [← ht]
  exact scalar_append n hrest

theorem readsValue_str (basicOnly : Bool) (s : Text) :
    ReadsValue (.str s) (quotedText basicOnly s) := by
  intro fuel room rest hfuel hrest
  obtain ⟨fuel, rfl⟩ : ∃ n, fuel = n + 1 := ⟨fuel - 1, by simp [quotedText] at hfuel; omega⟩
  rw [value_quoted]
  exact gives_ok (by simp [depth])

/-- When no bracket may be opened any more, one is opened too many. -/
theorem value_square_zero (fuel : Nat) (t : Text) :
    value (fuel + 1) 0 ('[' :: t) = .error (.tooDeep false) := by
  rw [value, if_pos rfl]

theorem value_curly_zero (fuel : Nat) (t : Text) :
    value (fuel + 1) 0 ('\x7b' :: t) = .error (.tooDeep true) := by
  rw [value, if_pos rfl]

theorem readsValue_noItems : ReadsValue (.arr []) ['[', ']'] := by
  intro fuel room rest hfuel hrest
  obtain ⟨fuel, rfl⟩ : ∃ n, fuel = n + 1 := ⟨fuel - 1, by simp at hfuel; omega⟩
  refine gives_nested ?_ ?_
  · rintro rfl
    exact ⟨false, value_square_zero _ _⟩
  · rintro less rfl
    have hskip : skipSpace (']' :: rest) = ']' :: rest := skipSpace_cons rfl rest
    have hread : value (fuel + 1) (less + 1) ('[' :: ']' :: rest) = .ok (.arr [], rest) := by
      simp [value, hskip]
    exact hread ▸ gives_ok (by simp [depthItems])

theorem readsValue_noMembers : ReadsValue (.obj []) ['\x7b', '\x7d'] := by
  intro fuel room rest hfuel hrest
  obtain ⟨fuel, rfl⟩ : ∃ n, fuel = n + 1 := ⟨fuel - 1, by simp at hfuel; omega⟩
  refine gives_nested ?_ ?_
  · rintro rfl
    exact ⟨true, value_curly_zero _ _⟩
  · rintro less rfl
    have hskip : skipSpace ('\x7d' :: rest) = '\x7d' :: rest := skipSpace_cons rfl rest
    have hread : value (fuel + 1) (less + 1) ('\x7b' :: '\x7d' :: rest) = .ok (.obj [], rest) := by
      simp [value, hskip]
    exact hread ▸ gives_ok (by simp [depthMembers])

theorem readsItems_done : ReadsItems [] [']'] := by
  intro fuel room rest hfuel
  obtain ⟨fuel, rfl⟩ : ∃ n, fuel = n + 1 := ⟨fuel - 1, by simp at hfuel; omega⟩
  have hread : moreItems (fuel + 1) room (']' :: rest) = .ok ([], rest) := by rw [moreItems]
  exact hread ▸ gives_ok (by simp [depthItems])

theorem readsMembers_done : ReadsMembers [] ['\x7d'] := by
  intro read fuel room rest hfuel hnew
  obtain ⟨fuel, rfl⟩ : ∃ n, fuel = n + 1 := ⟨fuel - 1, by simp at hfuel; omega⟩
  have hread : moreMembers (fuel + 1) room read ('\x7d' :: rest) = .ok (.obj read, rest) := by
    rw [moreMembers]
  rw [List.append_nil]
  exact hread ▸ gives_ok (by simp [depthMembers])

section Steps

variable (hs : style.Spaced)
include hs

theorem gives_items {item : Json} {items : List Json} {t u : Text}
    (hitems : PrintedItems style items u) (hreads : ReadsValue item t)
    (hreadsItems : ReadsItems items u) {fuel room : Nat} {rest x : Text}
    (hfuel : t.length + u.length ≤ fuel) (hx : skipSpace x = t ++ (u ++ rest)) :
    Gives room (max item.depth (depthItems items)) (moreItems (fuel + 1) room (',' :: x))
      (item :: items, rest) := by
  obtain ⟨hends, hskip⟩ := hitems.behind hs rest
  rw [moreItems_comma, hx]
  refine (hreads fuel room _ (by omega) hends).bind ?_
  dsimp only
  rw [hskip]
  exact (hreadsItems fuel room rest (by omega)).map fun r => (item :: r.1, r.2)

theorem gives_members {name : Text} {v : Json} {members read : Members} {t u : Text}
    (hname : ∀ m ∈ members, m.1 ≠ name) (hvalue : Printed style v t)
    (hmembers : PrintedMembers style members u)
    (hreads : ReadsValue v t) (hreadsMembers : ReadsMembers members u) {fuel room : Nat}
    {rest x : Text} (hfuel : t.length + u.length ≤ fuel)
    (hnew : ∀ m ∈ read, ∀ n ∈ (name, v) :: members, n.1 ≠ m.1)
    (hx : skipSpace x = quotedText style.basicOnly name ++ (style.colon ++ (t ++ (u ++ rest)))) :
    Gives room (max v.depth (depthMembers members))
      (moreMembers (fuel + 2) room read (',' :: x))
      (.obj (read ++ (name, v) :: members), rest) := by
  obtain ⟨hends, hskip⟩ := hmembers.behind hs rest
  obtain ⟨d, t, rfl, hd⟩ := hvalue.opening
  have hput : read.put name v = read ++ [(name, v)] :=
    put_of_new (fun m hm => hnew m hm _ List.mem_cons_self) v
  have hmember : Gives room v.depth (member (fuel + 1) room (skipSpace x))
      ((name, v), u ++ rest) := by
    rw [hx, List.cons_append, member_quoted hs _ _ _ hd, ← List.cons_append]
    exact (hreads fuel room _ (by omega) hends).map fun r => ((name, r.1), r.2)
  rw [moreMembers_comma]
  refine hmember.bind ?_
  dsimp only
  rw [hput, hskip, List.append_cons read (name, v) members]
  refine hreadsMembers _ (fuel + 1) room rest (by omega) ?_
  intro m hm n hn
  obtain hread | hlast := List.mem_append.mp hm
  · exact hnew m hread n (List.mem_cons_of_mem _ hn)
  · rw [List.mem_singleton.mp hlast]
    exact hname n hn

theorem readsValue_arr {item : Json} {items : List Json} {t u : Text}
    (hitem : Printed style item t) (hitems : PrintedItems style items u)
    (hreads : ReadsValue item t) (hreadsItems : ReadsItems items u) :
    ReadsValue (.arr (item :: items)) ('[' :: (t ++ u)) := by
  intro fuel room rest hfuel hrest
  obtain ⟨c, t, rfl, hc⟩ := hitem.opening
  simp only [List.length_cons, List.length_append] at hfuel
  obtain ⟨fuel, rfl⟩ : ∃ n, fuel = n + 1 := ⟨fuel - 1, by omega⟩
  have hskip : skipSpace (c :: t ++ u ++ rest) = c :: t ++ (u ++ rest) := by
    rw [List.append_assoc]
    exact skipSpace_cons hc.space _
  have hopen : ∀ w, skipSpace (c :: t ++ u ++ rest) ≠ ']' :: w := by
    intro w h
    rw [hskip] at h
    exact hc.square (List.cons.inj h).1
  refine gives_nested ?_ ?_
  · rintro rfl
    exact ⟨false, value_square_zero _ _⟩
  · rintro less rfl
    rw [List.cons_append, value_items hopen]
    exact (gives_items hs hitems hreads hreadsItems (by simp; omega) hskip).map _

theorem readsItems_more {item : Json} {items : List Json} {t u : Text}
    (hitem : Printed style item t) (hitems : PrintedItems style items u)
    (hreads : ReadsValue item t) (hreadsItems : ReadsItems items u) :
    ReadsItems (item :: items) (style.comma ++ (t ++ u)) := by
  intro fuel room rest hfuel
  obtain ⟨spaces, hcomma, hspaces⟩ := hs.comma
  obtain ⟨c, t, rfl, hc⟩ := hitem.opening
  rw [hcomma] at hfuel ⊢
  simp only [List.length_cons, List.length_append, List.cons_append] at hfuel
  obtain ⟨fuel, rfl⟩ : ∃ n, fuel = n + 1 := ⟨fuel - 1, by omega⟩
  have hskip : skipSpace (spaces ++ (c :: t ++ u) ++ rest) = c :: t ++ (u ++ rest) := by
    rw [List.append_assoc, skipSpace_append hspaces, List.append_assoc]
    exact skipSpace_cons hc.space _
  exact gives_items hs hitems hreads hreadsItems (by simp; omega) hskip

theorem readsValue_obj {name : Text} {v : Json} {members : Members} {t u : Text}
    (hname : ∀ m ∈ members, m.1 ≠ name) (hvalue : Printed style v t)
    (hmembers : PrintedMembers style members u) (hreads : ReadsValue v t)
    (hreadsMembers : ReadsMembers members u) :
    ReadsValue (.obj ((name, v) :: members))
      ('\x7b' :: (quotedText style.basicOnly name ++ (style.colon ++ (t ++ u)))) := by
  intro fuel room rest hfuel hrest
  have hcolon := hs.length_colon
  simp only [List.length_cons, List.length_append] at hfuel
  obtain ⟨fuel, rfl⟩ : ∃ n, fuel = n + 2 := ⟨fuel - 2, by omega⟩
  obtain ⟨x, hx⟩ : ∃ x, quotedText style.basicOnly name ++ (style.colon ++ (t ++ u)) ++ rest = x :=
    ⟨_, rfl⟩
  have hskip : skipSpace x =
      quotedText style.basicOnly name ++ (style.colon ++ (t ++ (u ++ rest))) := by
    rw [← hx, List.append_assoc, skipSpace_quoted]
    simp only [List.append_assoc]
  have hopen : ∀ w, skipSpace x ≠ '\x7d' :: w := by
    intro w h
    rw [hskip, quotedText_append] at h
    cases (List.cons.inj h).1
  rw [List.cons_append, hx]
  refine gives_nested ?_ ?_
  · rintro rfl
    exact ⟨true, value_curly_zero _ _⟩
  · rintro less rfl
    rw [value_members hopen]
    exact gives_members hs hname hvalue hmembers hreads hreadsMembers (by omega) (by simp) hskip

theorem readsMembers_more {name : Text} {v : Json} {members : Members} {t u : Text}
    (hname : ∀ m ∈ members, m.1 ≠ name) (hvalue : Printed style v t)
    (hmembers : PrintedMembers style members u) (hreads : ReadsValue v t)
    (hreadsMembers : ReadsMembers members u) :
    ReadsMembers ((name, v) :: members)
      (style.comma ++ (quotedText style.basicOnly name ++ (style.colon ++ (t ++ u)))) := by
  intro read fuel room rest hfuel hnew
  obtain ⟨spaces, hcomma, hspaces⟩ := hs.comma
  have hcolon := hs.length_colon
  rw [hcomma] at hfuel ⊢
  simp only [List.length_cons, List.length_append, List.cons_append] at hfuel
  obtain ⟨fuel, rfl⟩ : ∃ n, fuel = n + 2 := ⟨fuel - 2, by omega⟩
  have hskip : skipSpace (spaces ++ (quotedText style.basicOnly name ++
      (style.colon ++ (t ++ u))) ++ rest) =
        quotedText style.basicOnly name ++ (style.colon ++ (t ++ (u ++ rest))) := by
    rw [List.append_assoc, skipSpace_append hspaces, List.append_assoc, skipSpace_quoted]
    simp only [List.append_assoc]
  exact gives_members hs hname hvalue hmembers hreads hreadsMembers (by omega) hnew hskip

end Steps

mutual

/-- A value is read back from every text of it. -/
theorem readsValue_of_printed (hs : style.Spaced) : ∀ (v : Json) {t : Text},
    Printed style v t → ReadsValue v t
  | .null, _, .null =>
    readsValue_scalar (by simp [depth]) (by decide) (by decide) (by decide) fun _ _ => rfl
  | .bool true, _, .yes =>
    readsValue_scalar (by simp [depth]) (by decide) (by decide) (by decide) fun _ _ => rfl
  | .bool false, _, .no =>
    readsValue_scalar (by simp [depth]) (by decide) (by decide) (by decide) fun _ _ => rfl
  | .num _, _, .num n => readsValue_num n
  | .str s, _, .str _ => readsValue_str style.basicOnly s
  | .arr [], _, .noItems => readsValue_noItems
  | .arr (item :: items), _, .arr hitem hitems =>
    readsValue_arr hs hitem hitems (readsValue_of_printed hs item hitem)
      (readsItems_of_printed hs items hitems)
  | .obj [], _, .noMembers => readsValue_noMembers
  | .obj ((_, v) :: members), _, .obj hname hvalue hmembers =>
    readsValue_obj hs hname hvalue hmembers (readsValue_of_printed hs v hvalue)
      (readsMembers_of_printed hs members hmembers)

theorem readsItems_of_printed (hs : style.Spaced) : ∀ (items : List Json) {t : Text},
    PrintedItems style items t → ReadsItems items t
  | [], _, .done => readsItems_done
  | item :: items, _, .more hitem hitems =>
    readsItems_more hs hitem hitems (readsValue_of_printed hs item hitem)
      (readsItems_of_printed hs items hitems)

theorem readsMembers_of_printed (hs : style.Spaced) : ∀ (members : Members) {t : Text},
    PrintedMembers style members t → ReadsMembers members t
  | [], _, .done => readsMembers_done
  | (_, v) :: members, _, .more hname hvalue hmembers =>
    readsMembers_more hs hname hvalue hmembers (readsValue_of_printed hs v hvalue)
      (readsMembers_of_printed hs members hmembers)

end

/-- A text of a value denotes that value, unless its brackets are nested too deep. -/
theorem read_printed [Host] (hs : style.Spaced) {v : Json} {t : Text} (h : Printed style v t) :
    Gives Host.nestingLimit v.depth (read t) v := by
  obtain ⟨c, u, rfl, hc⟩ := h.opening
  have hends : Ends [] := by
    intro d hd
    cases hd
  have hreads := readsValue_of_printed hs v h (2 * (c :: u).length + 2) Host.nestingLimit []
    (by omega) hends
  rw [List.append_nil] at hreads
  unfold read
  rw [skipSpace_cons hc.space]
  refine ⟨fun hdepth => ?_, fun hdepth => ?_⟩
  · rw [hreads.1 hdepth]
    rfl
  · obtain ⟨opensObject, herror⟩ := hreads.2 hdepth
    exact ⟨opensObject, by rw [herror]⟩

end FragmentLint.Json
