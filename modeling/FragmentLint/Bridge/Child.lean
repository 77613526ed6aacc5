import FragmentLint.Text.Units

/-!
# Child processes

A child process is known by what crosses its pipes. It writes when it is started and whenever a
line reaches its input; what it writes then may depend on all lines that it has read. Its
output is kept as the lines that have not been read yet and an unfinished last line, which
counts as a line once the process has ended. Whatever happens after the end is ignored.

A line of output that is too long cannot be read. If its end is there, all of it is lost; if not,
what is there of it is lost, and the rest counts as a line of its own when it arrives.
-/

namespace FragmentLint

/-- What a process does on a piece of input. -/
inductive Reaction where
  /-- The input is not taken. -/
  | refuse (reason : Text)
  /-- The process writes to its output and its errors, and then perhaps ends. -/
  | write (output errors : Text) (exit : Option Int)
  deriving DecidableEq, Repr

/-- How a process behaves: at its start, on input and when its input is closed. -/
structure Behaviour where
  /-- The number by which the system knows the process. -/
  pid : Nat
  /-- What is written to the output at the start. -/
  output : Text
  /-- What is written to the errors at the start. -/
  errors : Text
  /-- The exit code, if the process ends at once. -/
  exit : Option Int
  /-- What happens on a line of input, given all lines up to it. -/
  react : List Text → Reaction
  /-- The exit code when the input is closed, if the process ends then. -/
  exitAtClose : Option Int

structure Child where
  behaviour : Behaviour
  /-- The lines of output that have not been read. -/
  unread : List Text := []
  /-- The unfinished line of output behind them. -/
  unfinished : Text := []
  /-- All that was written to the errors. -/
  errors : Text := []
  /-- The exit code, once the process has ended. -/
  exit : Option Int := none
  /-- Whether the input was closed. -/
  inputClosed : Bool := false
  /-- The lines that reached the input. -/
  written : List Text := []
  /-- Whether the errors are listened to. They reach the first listener only. -/
  listened : Bool := false

namespace Child

/-- The number of bytes that a line may have to be read, which is `2 ^ 20`. -/
def lineLimit : Nat := 1048576

def isOverlong (line : Text) : Bool :=
  lineLimit < Text.bytes line

def isAlive (p : Child) : Bool :=
  p.exit.isNone

/-- A process that ends with an exit code. Its unfinished line is finished by that, unless it is
lost in any case. -/
def finish (p : Child) (code : Int) : Child :=
  if p.isAlive then
    if isOverlong p.unfinished then { p with exit := some code }
    else
      { p with
        exit := some code
        unread := p.unread ++ (Text.nonempty? p.unfinished).toList
        unfinished := [] }
  else p

/-- A process that writes to its output and its errors, and then perhaps ends. -/
def emit (p : Child) (output errors : Text) (exit : Option Int) : Child :=
  if p.isAlive then
    let all := Text.lines (p.unfinished ++ output)
    let p := { p with
      unread := p.unread ++ all.dropLast
      unfinished := (all.getLast?).getD []
      errors := p.errors ++ errors }
    match exit with
    | some code => p.finish code
    | none => p
  else p

def start (b : Behaviour) : Child :=
  emit { behaviour := b } b.output b.errors b.exit

/-- A process after a line was written to its input, or why it did not take the line. -/
def write (p : Child) (line : Text) : Except Text Child :=
  let written := p.written ++ [line]
  match p.behaviour.react written with
  | .refuse reason => .error reason
  | .write output errors exit => .ok ({ p with written }.emit output errors exit)

def closeInput (p : Child) : Child :=
  if p.isAlive then
    let p := { p with inputClosed := true }
    match p.behaviour.exitAtClose with
    | some code => p.finish code
    | none => p
  else p

def killedCode : Int := -9

def kill (p : Child) : Child :=
  p.finish killedCode

theorem finish_of_not_isAlive {p : Child} {code : Int} (h : p.isAlive = false) :
    p.finish code = p := by
  simp [finish, h]

@[simp] theorem isAlive_finish (p : Child) (code : Int) : (p.finish code).isAlive = false := by
  unfold finish
  split
  · split <;> rfl
  · simpa using ‹¬ p.isAlive›

theorem isAlive_eq_false_iff {p : Child} : p.isAlive = false ↔ ∃ code, p.exit = some code := by
  rw [isAlive, Option.isNone_eq_false_iff, Option.isSome_iff_exists]

theorem emit_of_exit {p : Child} {code : Int} (h : p.exit = some code) (output errors : Text)
    (exit : Option Int) : p.emit output errors exit = p := by
  have hdead : p.isAlive = false := isAlive_eq_false_iff.mpr ⟨code, h⟩
  simp [emit, hdead]

theorem finish_written (p : Child) (code : Int) : (p.finish code).written = p.written := by
  unfold finish
  split
  · split <;> rfl
  · rfl

theorem finish_unread (p : Child) (code : Int) :
    ∃ more, (p.finish code).unread = p.unread ++ more := by
  unfold finish
  split
  · split
    · exact ⟨[], (List.append_nil _).symm⟩
    · exact ⟨_, rfl⟩
  · exact ⟨[], (List.append_nil _).symm⟩

theorem emit_written (p : Child) (output errors : Text) (exit : Option Int) :
    (p.emit output errors exit).written = p.written := by
  unfold emit
  split
  · cases exit with
    | none => rfl
    | some code => exact finish_written _ code
  · rfl

/-- Whatever a process writes is put behind what has not been read. -/
theorem emit_unread (p : Child) (output errors : Text) (exit : Option Int) :
    ∃ more, (p.emit output errors exit).unread = p.unread ++ more := by
  unfold emit
  split
  · cases exit with
    | none => exact ⟨_, rfl⟩
    | some code =>
      obtain ⟨more, h⟩ := finish_unread
        { p with
          unread := p.unread ++ (Text.lines (p.unfinished ++ output)).dropLast
          unfinished := ((Text.lines (p.unfinished ++ output)).getLast?).getD []
          errors := p.errors ++ errors } code
      exact ⟨_, by rw [h, List.append_assoc]⟩
  · exact ⟨[], (List.append_nil _).symm⟩

theorem write_spec {p q : Child} {line : Text} (h : p.write line = .ok q) :
    q.written = p.written ++ [line] ∧ ∃ more, q.unread = p.unread ++ more := by
  simp only [write] at h
  split at h
  · simp at h
  · obtain rfl := by simpa using h
    exact ⟨emit_written _ _ _ _, emit_unread _ _ _ _⟩

@[simp] theorem isAlive_kill (p : Child) : p.kill.isAlive = false :=
  isAlive_finish p killedCode

end Child

end FragmentLint
