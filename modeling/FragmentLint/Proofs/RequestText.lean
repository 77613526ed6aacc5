import FragmentLint.Parser.Diagram
import FragmentLint.Parser.Formula
import FragmentLint.Proofs.Rendering
import FragmentLint.Proofs.RequestLines

/-!
# The text of a request

Whatever a fragment holds, the text of the request to parse it is made up of characters of the
basic alphabet: every other character is escaped. So a request is one line, and a line feed ends it
and stands nowhere else. A reader of messages gets back what was asked.
-/
namespace FragmentLint

namespace Json

theorem Basic.ascii {c : Char} (h : Basic c) : c.toNat < 0x80 := by
  have hlow := h.2
  omega

/-- Beyond the basic alphabet a character is written by its code units. -/
theorem escapedChar_beyond {c : Char} (h : 0x7f ≤ c.toNat) :
    escapedChar true c = if c.toNat ≤ 0xffff then escapedUnit c.toNat
      else escapedUnit (Text.surrogates c).1 ++ escapedUnit (Text.surrogates c).2 := by
  have hne : ∀ d : Char, d.toNat < 0x7f → c ≠ d := by
    rintro d hd rfl
    omega
  unfold escapedChar
  rw [if_neg (hne _ (by decide)), if_neg (hne _ (by decide)), if_neg (hne _ (by decide)),
    if_neg (hne _ (by decide)), if_neg (hne _ (by decide)), if_neg (by omega), if_neg (by omega),
    if_neg (by omega), if_neg (by simpa using h)]

theorem basic_escapedChar (c : Char) : ∀ d ∈ escapedChar true c, Basic d := by
  by_cases hlow : c.toNat < 0x7f
  · have hescapes := escapes true c
    generalize escapedChar true c = u at hescapes ⊢
    have hmark : Basic '\\' := by decide
    cases hescapes with
    | short hread hd hc => simp [hmark, hd]
    | unit hc hcontrol => exact basic_escapedUnit c.toNat
    | pair hc hbasic => omega
    | plain hquote hslash hc => simpa using ⟨hc, hlow⟩
  · rw [escapedChar_beyond (by omega)]
    split
    · exact basic_escapedUnit c.toNat
    · exact List.forall_mem_append.mpr ⟨basic_escapedUnit _, basic_escapedUnit _⟩

theorem Style.spells_basic_request : Style.request.Spells Basic where
  basic := fun _ hc => hc
  escaped := basic_escapedChar
  comma := by simp [Style.request, Basic]
  colon := by simp [Style.request, Basic]

/-- The text of a value in a request is made up of characters of the basic alphabet. -/
theorem basic_printed {v : Json} {t : Text} (h : Printed .request v t) : ∀ c ∈ t, Basic c :=
  forall_mem_printed Style.spells_basic_request v h

theorem basic_ofNat (n : Nat) : ∀ c ∈ Text.ofNat n, Basic c :=
  fun _ hc => basic_of_isDigit (Text.isDigit_of_mem_ofNat hc)

theorem read_request [Host] {v : Json} (hv : Writable v) (hdepth : v.depth ≤ Host.nestingLimit) :
    read (v.render .request) = .ok v :=
  (read_printed Style.spaced_request (printed_render .request v hv)).1 hdepth

end Json

namespace Session

/-- A line of a request says the members that it holds. -/
theorem said?_request [Host] {members : Json.Members} (hw : (Json.obj members).Writable)
    (hdepth : (Json.obj members).depth ≤ Host.nestingLimit) :
    said? ((Json.obj members).render .request) = some (.ok members) := by
  rw [said?, Json.trim_printed (Json.printed_render .request _ hw), Json.said?_eq_ok_iff]
  exact Json.read_request hw hdepth

/-- A request writes its line, or nothing. -/
theorem written_request [Host] {s t : Session} {payload : Json.Members}
    {answer : Except Fault Json.Members} (h : s.request payload = some (answer, t)) :
    t.child.written = s.child.written ∨
      t.child.written = s.child.written ++ [requestLine payload (s.last + 1)] := by
  cases asked_of_request h with
  | gone hexit => exact .inl rfl
  | refused hexit hreact => exact .inl rfl
  | written hexit hreact hwritten => exact .inr hwritten

end Session

/-- A text of ASCII characters in which no line ends, and which is the line by which a session is
asked to parse a diagram under a given number. -/
structure AsksDiagram [Host] (code : Text) (number : Nat) (text : Text) : Prop where
  line : Session.requestLine (Diagram.payload code) number = text ++ ['\n']
  ascii : ∀ c ∈ text, c.toNat < 0x80
  feed : '\n' ∉ text
  /-- A request of that number writes the line and nothing else, if it writes anything. -/
  written : ∀ (s t : Session) (answer : Except Fault Json.Members), s.last + 1 = number →
    s.request (Diagram.payload code) = some (answer, t) →
    t.child.written = s.child.written ∨ t.child.written = s.child.written ++ [text ++ ['\n']]
  /-- A number that can be written can be read, and then the line says what was asked. -/
  read : (Text.ofNat number).length ≤ Text.digitLimit →
    Session.said? text = some (.ok [("code", .str code), ("id", .num (.int number))])

/-- An input of ASCII characters that is read as the code of a formula with its options. -/
structure AsksFormula [Host] (code : Text) (displayMode strict : Bool) (input : Text) : Prop where
  ascii : ∀ c ∈ input, c.toNat < 0x80
  read : Json.read input = .ok (.obj [("code", .str code),
    ("options", .obj [("displayMode", .bool displayMode), ("strict", .bool strict)])])

section Asking

open Json

/-- The text that asks for a diagram is one of the basic alphabet even if its number is too long to
be read. -/
theorem basic_askingText (code : Text) (number : Nat) :
    ∀ c ∈ (Json.obj [("code", .str code), ("id", .num (.int number))]).render .request,
      Basic c := by
  have hspells := Style.spells_basic_request
  have hclosing : ∀ c ∈ ['\x7d'], Basic c := by simp [Basic]
  have hid := List.forall_mem_append.mpr
    ⟨hspells.comma, forall_mem_member hspells "id" (basic_ofNat number) hclosing⟩
  have hcode := forall_mem_member hspells "code" (forall_mem_quoted hspells code) hid
  have hopening : Basic '\x7b' := by decide
  simp only [render, renderMembers, Text.ofInt, List.append_assoc, List.cons_append]
  exact List.forall_mem_cons.mpr ⟨hopening, hcode⟩

theorem asksDiagram [Host] (code : Text) (number : Nat) : AsksDiagram code number
    ((Json.obj [("code", .str code), ("id", .num (.int number))]).render .request) := by
  have hbasic := basic_askingText code number
  constructor
  case line => rfl
  case ascii => exact fun c hc => (hbasic c hc).ascii
  case feed =>
    intro hfeed
    exact absurd (hbasic _ hfeed) (by decide)
  case written =>
    rintro s t answer rfl hrequest
    exact Session.written_request hrequest
  case read =>
    intro hlength
    have hdepth : (Json.obj [("code", .str code), ("id", .num (.int number))]).depth ≤ 2 := by
      simp [depth, depthMembers]
    refine Session.said?_request ?_ (hdepth.trans Host.two_le_nestingLimit)
    simpa [Writable, WritableMembers] using hlength

theorem asksFormula [Host] (code : Text) (displayMode strict : Bool) (settings : Settings) :
    AsksFormula code displayMode strict
      (Script.call (Formula.payload code displayMode strict) settings).input := by
  have hw : Writable (.obj (Formula.payload code displayMode strict)) := by
    simp [Formula.payload, Writable, WritableMembers]
  constructor
  case ascii =>
    intro c hc
    exact (basic_printed (printed_render .request _ hw) c hc).ascii
  case read =>
    have hdepth : (Json.obj (Formula.payload code displayMode strict)).depth ≤ 2 := by
      simp [Formula.payload, depth, depthMembers]
    exact read_request hw (hdepth.trans Host.two_le_nestingLimit)

end Asking

/-- Whatever the code of a fragment is, the request to parse it is written in ASCII, a request of a
session as one line with a feed at its end and nowhere else, and is read back as the code that was
asked about, with its number or its options. -/
theorem requests_read_back [Host] (code : Text) :
    (∀ number, ∃ text, AsksDiagram code number text) ∧
      ∀ displayMode strict settings, AsksFormula code displayMode strict
        (Script.call (Formula.payload code displayMode strict) settings).input :=
  ⟨fun number => ⟨_, asksDiagram code number⟩, asksFormula code⟩

section

open scoped Host.Usual

/-- The first request for a code with quotes, line ends, and characters of two code units. -/
theorem requests_read_back_awkward :
    let code : Text := "\"a\\\n\t𝔸é\""
    ∃ text, Session.requestLine (Diagram.payload code) 1 = text ++ ['\n'] ∧ '\n' ∉ text ∧
      Session.said? text = some (.ok [("code", .str code), ("id", .num (.int 1))]) := by
  intro code
  obtain ⟨text, hasks⟩ := (requests_read_back code).1 1
  exact ⟨text, hasks.line, hasks.feed, hasks.read (by decide)⟩

end

end FragmentLint
