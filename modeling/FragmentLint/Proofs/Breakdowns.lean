import FragmentLint.Proofs.Acceptance

/-!
# When the parser of formulas breaks down

A parser is to answer with a verdict, whatever its process does: a fault of the bridge is one
more failure. Two things break the parser of formulas all the same, and they are pinned down here
in terms of what its script writes. The last line that says anything may go beyond what can be
read, where any other line that is no object is passed over; and an answer may point in front of
the formula. Nothing else does.
-/
namespace FragmentLint

namespace Verdict

theorem broke_or {v : Verdict} : (∃ d, v = .broke d) ∨ v = .accepted ∨ ∃ f, v = .rejected f := by
  cases v with
  | accepted => exact .inr (.inl rfl)
  | rejected f => exact .inr (.inr ⟨f, rfl⟩)
  | broke d => exact .inl ⟨d, rfl⟩

/-- A verdict that is the parser's own, unless something breaks the parser; then the defect says
what. -/
structure OwnUnless (breaks : ValueFault → Prop) (v : Verdict) : Prop where
  /-- The code is accepted or rejected exactly if nothing breaks the parser. -/
  own : (v = .accepted ∨ ∃ failure, v = .rejected failure) ↔ ∀ fault, ¬ breaks fault
  /-- Whatever breaks the parser is its defect. -/
  broke : ∀ d, v = .broke d ↔ ∃ fault, breaks fault ∧ d = (Fault.value fault).asDefect

theorem ownUnless_of_broke {breaks : ValueFault → Prop} {v : Verdict}
    (h : ∀ d, v = .broke d ↔ ∃ fault, breaks fault ∧ d = (Fault.value fault).asDefect) :
    v.OwnUnless breaks := by
  refine ⟨⟨?_, ?_⟩, h⟩
  · intro hown fault hbreaks
    have hdefect := (h _).mpr ⟨fault, hbreaks, rfl⟩
    obtain haccepted | ⟨failure, hrejected⟩ := hown
    · simp [hdefect] at haccepted
    · simp [hdefect] at hrejected
  · intro hnone
    obtain ⟨d, hd⟩ | hown := v.broke_or
    · obtain ⟨fault, hbreaks, -⟩ := (h d).mp hd
      exact absurd hbreaks (hnone fault)
    · exact hown

end Verdict

/-- What can go wrong when a process is asked: a fault of the bridge, or a value that cannot be
used. -/
def Fault.OfProcess (fault : Fault) : Prop :=
  (∃ f, fault = .bridge f) ∨ ∃ f, fault = .value f

namespace Script

/-- The last line of an output that says anything goes beyond what can be read. -/
def Garbled [Host] (output : Text) (fault : ValueFault) : Prop :=
  ∃ before line after, splitLines output = before ++ line :: after ∧
    Json.said? line = some (.error fault) ∧ ∀ l ∈ after, Json.Stray l

theorem answer?_append [Host] {stray : List Text} (h : ∀ l ∈ stray, Json.Stray l)
    (lines : List Text) :
    answer? (stray ++ lines) = answer? lines := by
  induction stray with
  | nil => rfl
  | cons line stray ih =>
    have hline : Json.said? line = none := h line List.mem_cons_self
    rw [List.cons_append, answer?_cons, hline]
    exact ih fun l hl => h l (List.mem_cons_of_mem line hl)

theorem answer?_eq_error_iff [Host] {lines : List Text} {fault : ValueFault} :
    answer? lines = .error fault ↔ ∃ stray line rest, lines = stray ++ line :: rest ∧
      (∀ l ∈ stray, Json.Stray l) ∧ Json.said? line = some (.error fault) := by
  constructor
  · intro h
    induction lines with
    | nil => simp [answer?] at h
    | cons line lines ih =>
      rw [answer?_cons] at h
      cases hsaid : Json.said? line with
      | some said =>
        cases said with
        | ok members => simp [hsaid] at h
        | error found =>
          obtain rfl : found = fault := by simpa [hsaid] using h
          exact ⟨[], line, lines, rfl, by simp, hsaid⟩
      | none =>
        rw [hsaid] at h
        obtain ⟨stray, l, rest, rfl, hstray, hl⟩ := ih h
        exact ⟨line :: stray, l, rest, rfl, List.forall_mem_cons.mpr ⟨hsaid, hstray⟩, hl⟩
  · rintro ⟨stray, line, rest, rfl, hstray, hline⟩
    rw [answer?_append hstray, answer?_cons, hline]

theorem garbled_iff [Host] {output : Text} {fault : ValueFault} :
    Garbled output fault ↔ answer? (splitLines output).reverse = .error fault := by
  rw [answer?_eq_error_iff]
  constructor
  · rintro ⟨before, line, after, heq, hline, hstray⟩
    exact ⟨after.reverse, line, before.reverse, by simp [heq], by simpa using hstray, hline⟩
  · rintro ⟨stray, line, rest, heq, hstray, hline⟩
    refine ⟨rest.reverse, line, stray.reverse, ?_, hline, by simpa using hstray⟩
    simpa using congrArg List.reverse heq

/-- A fault of a script's answer that is none of the bridge is that of an output that cannot be
read, as messages or as a text. -/
theorem reply_eq_value_iff [Host] {executable : Text} {ending : ScriptEnd} {fault : ValueFault} :
    reply executable ending = .error (.value fault) ↔
      (∃ output errors exit, ending = .finished output errors exit ∧ Garbled output fault) ∨
        ∃ output bytes, ending = .undecodable output bytes ∧ fault = .undecodable bytes := by
  cases ending with
  | refused reason => simp [reply]
  | undecodable output bytes => simp [reply, eq_comm]
  | finished output errors exit =>
    have hgarbled := @garbled_iff _ output fault
    simp only [reply]
    split
    · rename_i found hfound
      rw [hfound] at hgarbled
      simpa [eq_comm] using hgarbled.symm
    · rename_i members hmembers
      rw [hmembers] at hgarbled
      simpa using hgarbled
    · rename_i hnone
      rw [hnone] at hgarbled
      simpa using hgarbled

theorem ofProcess_of_reply [Host] {executable : Text} {ending : ScriptEnd} {fault : Fault}
    (h : reply executable ending = .error fault) : fault.OfProcess := by
  cases ending with
  | refused reason => exact .inl ⟨_, (Except.error.inj h).symm⟩
  | undecodable output bytes => exact .inr ⟨_, (Except.error.inj h).symm⟩
  | finished output errors exit =>
    simp only [reply] at h
    split at h
    · exact .inr ⟨_, (Except.error.inj h).symm⟩
    · cases h
    · exact .inl ⟨_, (Except.error.inj h).symm⟩

end Script

namespace Formula

/-- What breaks the parser of formulas. -/
inductive Breaks [Host] (site : Site) (options : Options) (code : Text) (w : World) :
    ValueFault → Prop where
  /-- The last line of the script's output that says anything goes beyond what can be read. -/
  | garbled {output errors : Text} {exit : Int} {fault : ValueFault}
      (hends : Ends site options code w (.finished output errors exit))
      (hgarbled : Script.Garbled output fault) :
      Breaks site options code w fault
  /-- What the script wrote is no UTF-8. -/
  | undecodable {output : Text} {bytes : Text.Utf8Fault}
      (hends : Ends site options code w (.undecodable output bytes)) :
      Breaks site options code w (.undecodable bytes)
  /-- The script's answer rejects the formula at a place in front of it. -/
  | inFront {output errors : Text} {exit : Int} {answer : Json.Members} {after : List Text}
      {position : Json} {offset : Int}
      (hends : Ends site options code w (.finished output errors exit))
      (hlast : Script.LastObject (Script.splitLines output) answer after)
      (hread : ∀ l ∈ after, ¬ Script.Unreadable l)
      (hrejects : Reply.accepts answer = false)
      (hname : answer.get? "name" = some (.str structuredKind))
      (hposition : answer.get? "position" = some position)
      (hoffset : position.asInt? = some offset) (hnegative : offset < 0) :
      Breaks site options code w (.negativeOffset offset)

theorem isStructured_iff {reply : Json.Members} :
    isStructured reply = true ↔ reply.get? "name" = some (.str structuredKind) := by
  unfold isStructured
  split
  · rename_i kind hname
    rw [hname]
    simp
  · rename_i hname
    constructor
    · intro h
      cases h
    · intro h
      exact absurd h (hname _)

theorem ofReply_eq_value_iff {code : Text} {reply : Json.Members} {fault : ValueFault} :
    ofReply code reply = .error (.fault (.value fault)) ↔
      Reply.accepts reply = false ∧ isStructured reply = true ∧
        ∃ offset, (reply.get? "position").bind Json.asInt? = some offset ∧ offset < 0 ∧
          fault = .negativeOffset offset := by
  unfold ofReply
  cases Reply.accepts reply with
  | true => simp only [if_true, reduceCtorEq, false_and]
  | false =>
    cases isStructured reply with
    | false =>
      simp only [Bool.false_eq_true, if_false, Except.error.injEq, ParseFault.fault.injEq,
        reduceCtorEq, false_and, and_false]
    | true =>
      simp only [Bool.false_eq_true, if_false, if_true, true_and]
      cases (reply.get? "position").bind Json.asInt? with
      | none => simp
      | some offset =>
        by_cases hnegative : offset < 0
        · simp [Position.ofUnitsAt?, hnegative, eq_comm]
        · simp [Position.ofUnitsAt?, hnegative]

theorem ofProcess_of_ofReply {code : Text} {reply : Json.Members} {fault : Fault}
    (h : ofReply code reply = .error (.fault fault)) : fault.OfProcess := by
  unfold ofReply at h
  split at h
  · cases h
  · split at h
    · split at h
      · simp at h
      · split at h
        · simp at h
        · exact .inr ⟨_, (ParseFault.fault.inj (Except.error.inj h)).symm⟩
    · exact .inl ⟨_, (ParseFault.fault.inj (Except.error.inj h)).symm⟩

theorem parse_eq_value_iff [Host] {site : Site} {options : Options} {code : Text} {w : World}
    {fault : ValueFault} :
    (parse site code options.displayMode options.strict w).1 = .error (.fault (.value fault)) ↔
      Breaks site options code w fault := by
  unfold parse
  cases hsettings : site.settings? with
  | error found =>
    simp only [Except.error.injEq, ParseFault.fault.injEq, reduceCtorEq, false_iff]
    intro h
    have hnone : ∀ ending, ¬ Ends site options code w ending := by
      rintro ending ⟨settings, hsettings', -⟩
      simp [hsettings] at hsettings'
    cases h with
    | garbled hends => exact hnone _ hends
    | undecodable hends => exact hnone _ hends
    | inFront hends => exact hnone _ hends
  | ok settings =>
    -- However the script is said to end, it is the one run with the settings that hold.
    have hends : Ends site options code w _ := ends_of_settings hsettings
    have hsame : ∀ ending, Ends site options code w ending → _ = ending :=
      fun _ h => ends_unique hends h
    simp only [Site.runOnce]
    cases hreply : Script.reply settings.executable (site.runScript (w.attempts .math)
        (Script.call (payload code options.displayMode options.strict) settings)) with
    | error found =>
      simp only [Except.error.injEq, ParseFault.fault.injEq]
      constructor
      · rintro rfl
        obtain ⟨output, errors, exit, hrun, hgarbled⟩ | ⟨output, bytes, hrun, rfl⟩ :=
          Script.reply_eq_value_iff.mp hreply
        · exact .garbled (hrun ▸ hends) hgarbled
        · exact .undecodable (hrun ▸ hends)
      · intro h
        cases h with
        | garbled hends' hgarbled =>
          rw [Script.reply_eq_value_iff.mpr (.inl ⟨_, _, _, hsame _ hends', hgarbled⟩)] at hreply
          exact (Except.error.inj hreply).symm
        | undecodable hends' =>
          rw [Script.reply_eq_value_iff.mpr (.inr ⟨_, _, hsame _ hends', rfl⟩)] at hreply
          exact (Except.error.inj hreply).symm
        | inFront hends' hlast hread =>
          rw [Script.reply_eq_ok_iff.mpr ⟨_, _, _, _, hsame _ hends', hlast, hread⟩] at hreply
          cases hreply
    | ok reply =>
      obtain ⟨output, errors, exit, after, hrun, hlast, hread⟩ := Script.reply_eq_ok_iff.mp hreply
      rw [ofReply_eq_value_iff, isStructured_iff]
      constructor
      · rintro ⟨hrejects, hname, offset, hoffset, hnegative, rfl⟩
        obtain ⟨position, hposition, hoffset⟩ := Option.bind_eq_some_iff.mp hoffset
        exact .inFront (hrun ▸ hends) hlast hread hrejects hname hposition hoffset hnegative
      · intro h
        cases h with
        | garbled hends' hgarbled =>
          rw [Script.reply_eq_value_iff.mpr (.inl ⟨_, _, _, hsame _ hends', hgarbled⟩)] at hreply
          cases hreply
        | undecodable hends' =>
          rw [Script.reply_eq_value_iff.mpr (.inr ⟨_, _, hsame _ hends', rfl⟩)] at hreply
          cases hreply
        | inFront hends' hlast' _ hrejects hname hposition hoffset hnegative =>
          obtain ⟨rfl, -, -⟩ := by simpa [hrun] using hsame _ hends'
          obtain ⟨rfl, -⟩ := Script.lastObject_unique hlast hlast'
          exact ⟨hrejects, hname, _, by rw [hposition]; exact hoffset, hnegative, rfl⟩

theorem ofProcess_of_parse [Host] {site : Site} {options : Options} {code : Text} {w : World}
    {fault : Fault}
    (h : (parse site code options.displayMode options.strict w).1 = .error (.fault fault)) :
    fault.OfProcess := by
  unfold parse at h
  split at h
  · exact .inl ⟨_, (ParseFault.fault.inj (Except.error.inj h)).symm⟩
  · simp only [Site.runOnce] at h
    split at h
    · rename_i hreply
      obtain rfl := ParseFault.fault.inj (Except.error.inj h)
      exact Script.ofProcess_of_reply hreply
    · exact ofProcess_of_ofReply h

theorem verdict_broke_iff {outcome : Except ParseFault Unit}
    (hfaults : ∀ fault, outcome = .error (.fault fault) → fault.OfProcess) {d : Defect} :
    verdict outcome = .broke d ↔
      ∃ fault, outcome = .error (.fault (.value fault)) ∧ d = (Fault.value fault).asDefect := by
  cases outcome with
  | ok u => simp [verdict]
  | error fault =>
    cases fault with
    | rejected message position => simp [verdict]
    | fault f =>
      obtain ⟨g, rfl⟩ | ⟨g, rfl⟩ := hfaults f rfl
      · simp [verdict]
      · simp [verdict, eq_comm]

theorem check_broke_iff [Host] {site : Site} {options : Options} {code : Text} {w : World}
    {d : Defect} :
    (check site options code w).verdict = .broke d ↔
      ∃ fault, Breaks site options code w fault ∧ d = (Fault.value fault).asDefect := by
  have hverdict : (check site options code w).verdict =
      verdict (parse site code options.displayMode options.strict w).1 := rfl
  rw [hverdict, verdict_broke_iff fun fault h => ofProcess_of_parse h]
  simp only [parse_eq_value_iff]

/-- An answer that rejects its formula one unit in front of it. -/
def inFrontReply : Text :=
  '\x7b' :: "\"name\": \"ParseError\", \"position\": -1\x7d"

theorem member_name (fuel room : Nat) :
    Json.member (fuel + 2) room "\"name\": \"ParseError\", \"position\": -1\x7d" =
      .ok (("name", .str "ParseError"), ", \"position\": -1\x7d") := by
  simp [Json.member, Json.quotedBody?, Json.skipSpace, Json.isSpace, Json.value,
    bind, Except.bind, pure, Except.pure]

theorem member_position (fuel room : Nat) :
    Json.member (fuel + 2) room "\"position\": -1\x7d" =
      .ok (("position", .num (.int (-1))), ['\x7d']) := by
  have hone : Text.readDigits ['1'] = .ok 1 := rfl
  simp [Json.member, Json.quotedBody?, Json.skipSpace, Json.isSpace, Json.value, Json.scalar,
    Json.words, Text.after?, List.findSome?, Json.unsigned, Json.digits, Json.fraction?,
    Json.exponent?, hone, bind, Except.bind, pure, Except.pure]

-- The answer is read member by member: evaluated at once, it is too much for the kernel.
theorem value_inFrontReply (fuel room : Nat) :
    Json.value (fuel + 4) (room + 1) inFrontReply =
      .ok (.obj [("name", .str structuredKind), ("position", .num (.int (-1)))], []) := by
  rw [inFrontReply, Json.value]
  show (Json.member (fuel + 3) room "\"name\": \"ParseError\", \"position\": -1\x7d").bind _ = _
  rw [member_name, Except.bind]
  show Json.moreMembers (fuel + 3) room [("name", .str structuredKind)]
    (',' :: ' ' :: "\"position\": -1\x7d") = _
  rw [Json.moreMembers]
  show (Json.member (fuel + 2) room "\"position\": -1\x7d").bind _ = _
  rw [member_position, Except.bind]
  show Json.moreMembers (fuel + 2) room _ ['\x7d'] = _
  rw [Json.moreMembers]
  rfl

theorem read_inFrontReply [Host] : Json.read inFrontReply =
    .ok (.obj [("name", .str structuredKind), ("position", .num (.int (-1)))]) := by
  have hroom : Host.nestingLimit - 1 + 1 = Host.nestingLimit :=
    Nat.succ_pred_eq_of_ne_zero Host.nestingLimit_ne_zero
  have hvalue : Json.value (2 * inFrontReply.length + 2) Host.nestingLimit
      (Json.skipSpace inFrontReply) = _ :=
    hroom ▸ value_inFrontReply 74 (Host.nestingLimit - 1)
  rw [Json.read, hvalue]
  rfl

/-- A site at which every script gives that answer. -/
def inFrontSite : Site :=
  { launch := fun _ => .error "no such program"
    runScript := fun _ _ => .finished (inFrontReply ++ ['\n']) [] 0 }

theorem breaks_inFrontSite [Host] (options : Options) (code : Text) (w : World) :
    Breaks inFrontSite options code w (.negativeOffset (-1)) := by
  obtain ⟨settings, hsettings⟩ : ∃ settings, inFrontSite.settings? = .ok settings := ⟨_, rfl⟩
  have hlines : Script.splitLines (inFrontReply ++ ['\n']) = [inFrontReply] := rfl
  have hlast : Script.LastObject (Script.splitLines (inFrontReply ++ ['\n'])) _ [] :=
    ⟨[], _, hlines, read_inFrontReply, by simp⟩
  exact .inFront ⟨settings, hsettings, rfl⟩ hlast (by simp) rfl rfl rfl rfl (by decide)

/-- Whatever becomes of the process that is run for a formula, its parser has a verdict of its
own, unless the output or the answer breaks it; then the defect says how. -/
theorem breaks_on_garbled_or_inFront [Host] (site : Site) (options : Options) (code : Text)
    (w : World) :
    (check site options code w).verdict.OwnUnless (Breaks site options code w) :=
  Verdict.ownUnless_of_broke fun _ => check_broke_iff

section

open scoped Host.Usual

/-- A parser that is told of a place in front of its formula does not reject the formula: it
breaks down. -/
theorem inFront_breaks :
    (check inFrontSite {} "x" {}).verdict = .broke ⟨"ValueError", "Offset must be >= 0, got -1"⟩ :=
  check_broke_iff.mpr ⟨_, breaks_inFrontSite _ _ _, rfl⟩

end

end Formula

end FragmentLint
