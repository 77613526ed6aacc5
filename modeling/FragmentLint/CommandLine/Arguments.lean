import FragmentLint.Report.Format
import FragmentLint.Text.Digit

/-!
# Arguments

Arguments are options and operands. An option begins with a dash. A long one may be cut
short as long as it stays the only one that begins so, and takes its value behind an equals
sign or from the next argument; short ones may be written together. Two dashes alone end
the options, and what looks like a negative number or holds a space is no option. Two dashes
behind an equals sign are no value either: the option then has none, which is noticed where
the value is needed.

All operands have to stand together, since they make up one list of paths. Each argument is
looked at by itself first, so what could be several options is a mistake wherever it stands.
Options are then taken in order, so a request for help counts if it stands in front of the
first other mistake. Operands that are missing or left over are noticed last.
-/

namespace FragmentLint

/-- The options of the command line. -/
inductive Switch where
  | help
  | basic
  | displayMode
  | strict
  | format
  | rule
  | verbose
  deriving DecidableEq, Repr

namespace Switch

def spellings : List (Text × Switch) :=
  [("-h", .help), ("--help", .help), ("--basic", .basic), ("--display-mode", .displayMode),
   ("--strict", .strict), ("--format", .format), ("--rule", .rule), ("--verbose", .verbose),
   ("-v", .verbose)]

def ofSpelling? (t : Text) : Option Switch :=
  spellings.lookup t

def takesValue : Switch → Bool
  | .format | .rule => true
  | _ => false

end Switch

structure Request where
  paths : List Text := []
  basic : Bool := false
  displayMode : Bool := false
  strict : Bool := false
  /-- The format, unless its value was lost. -/
  format : Option Format := some .rust
  /-- The rules to run; without any, all of them. A name may have been lost. -/
  rules : List (Option Text) := []
  /-- How much is noted. -/
  verbosity : Nat := 0
  deriving DecidableEq, Repr

/-- Why arguments ask for nothing that can be done. -/
inductive Refusal where
  /-- Help is asked for. -/
  | help
  /-- The arguments make no sense. -/
  | misuse
  deriving DecidableEq, Repr

namespace Arguments

/-- What stands behind the spelling of an option in its argument. -/
inductive Attached where
  | nothing
  /-- A value behind an equals sign. -/
  | value (t : Text)
  /-- More letters, each of them a short option. -/
  | letters (t : Text)
  deriving DecidableEq, Repr

/-- An argument as it reads by itself. -/
inductive Word where
  /-- A path, or the value of the option in front of it. -/
  | operand (t : Text)
  /-- The end of the options. -/
  | separator
  /-- An option. -/
  | option (s : Switch) (attached : Attached)
  /-- What looks like an option and is none. -/
  | unknown
  deriving DecidableEq, Repr

/-- A text in front of its first equals sign, and the value behind it if there is one. -/
def splitValue (t : Text) : Text × Attached :=
  let name := t.takeWhile (· ≠ '=')
  match t.dropWhile (· ≠ '=') with
  | [] => (name, .nothing)
  | _ :: value => (name, .value value)

def isNegativeNumber (t : Text) : Bool :=
  match t with
  | '-' :: t =>
    let whole := t.takeWhile isDigit
    match t.dropWhile isDigit with
    | [] | ['\n'] => whole ≠ []
    | '.' :: fraction =>
      let rest := fraction.dropWhile isDigit
      fraction.takeWhile isDigit ≠ [] && (rest = [] || rest = ['\n'])
    | _ => false
  | _ => false
where
  isDigit (c : Char) : Bool := Text.isDigit c

/-- The options that a text may stand for, if it is the spelling of none. -/
def candidates (t : Text) : List (Switch × Attached) :=
  match t with
  | '-' :: '-' :: _ =>
    let (start, attached) := splitValue t
    (Switch.spellings.filter (Text.startsWith ·.1 start)).map fun (_, s) => (s, attached)
  | '-' :: c :: letters =>
    match Switch.ofSpelling? ['-', c] with
    | some s => [(s, .letters letters)]
    | none => []
  | _ => []

/-- An argument that begins with a dash and is the spelling of no option. It must not stand for
several options. -/
def guess (t : Text) : Except Refusal Word :=
  match candidates t with
  | [(s, attached)] => .ok (.option s attached)
  | _ :: _ :: _ => .error .misuse
  | [] => .ok (if isNegativeNumber t || ' ' ∈ t then .operand t else .unknown)

/-- What stands behind an equals sign: a value, or the letters of more options if the spelling in
front of it is a short one. -/
def assigned (name value : Text) : Attached :=
  if name.length = 2 then .letters value else .value value

def word (t : Text) : Except Refusal Word :=
  match t with
  | '-' :: _ :: _ =>
    match Switch.ofSpelling? t with
    | some s => .ok (.option s .nothing)
    | none =>
      let (name, attached) := splitValue t
      match Switch.ofSpelling? name, attached with
      | some s, .value value => .ok (.option s (assigned name value))
      | _, _ => guess t
  | _ => .ok (.operand t)

/-- The arguments as they read one by one. Behind the end of the options all are operands. -/
def words : List Text → Except Refusal (List Word)
  | [] => .ok []
  | t :: ts =>
    if t = ['-', '-'] then .ok (.separator :: ts.map .operand)
    else do
      let first ← word t
      let others ← words ts
      return first :: others

/-- What was made of the arguments so far. -/
structure Progress where
  request : Request := {}
  /-- Whether the paths have been found. -/
  hasPaths : Bool := false
  /-- Whether something was left over. -/
  hasExtras : Bool := false

def flag (p : Progress) : Switch → Except Refusal Progress
  | .help => .error .help
  | .basic => .ok { p with request.basic := true }
  | .displayMode => .ok { p with request.displayMode := true }
  | .strict => .ok { p with request.strict := true }
  | .verbose => .ok { p with request.verbosity := p.request.verbosity + 1 }
  | .format | .rule => .error .misuse

/-- What becomes of an option with a value, or with none if it was lost. -/
def assign (p : Progress) (s : Switch) (value : Option Text) : Except Refusal Progress :=
  match s with
  | .format => match value.map Format.ofName? with
    | none => .ok { p with request.format := none }
    | some (.ok format) => .ok { p with request.format := some format }
    | some (.error _) => .error .misuse
  | .rule => .ok { p with request.rules := p.request.rules ++ [value] }
  | _ => .error .misuse

/-- The value that stands behind an equals sign, unless it is lost. -/
def kept (value : Text) : Option Text :=
  if value = ['-', '-'] then none else some value

/-- The short options that letters stand for, if each of them is one. -/
def cluster? (letters : Text) : Option (List Switch) :=
  letters.mapM fun c => Switch.ofSpelling? ['-', c]

/-- What becomes of an option and the letters behind it, of which there is at least one. -/
def flags (p : Progress) (s : Switch) (letters : Text) : Except Refusal Progress :=
  match cluster? letters with
  | none | some [] => .error .misuse
  | some others => (s :: others).foldlM flag p

/-- What becomes of arguments that are no options. The first of them with an operand among
them are the paths. -/
def operands (p : Progress) (run : List Word) : Progress :=
  let paths := run.filterMap fun w => match w with
    | .operand t => some t
    | _ => none
  if p.hasPaths || paths.isEmpty then { p with hasExtras := true }
  else { p with request.paths := paths, hasPaths := true }

def isOperand : Word → Bool
  | .operand _ | .separator => true
  | _ => false

/-- What becomes of the words of the command line, in order. -/
def consume (p : Progress) (words : List Word) : Except Refusal Progress :=
  match words with
  | [] => .ok p
  | .unknown :: rest => consume { p with hasExtras := true } rest
  | .option s .nothing :: rest =>
    if s.takesValue then
      match rest with
      | .operand value :: rest => do consume (← assign p s (some value)) rest
      | _ => .error .misuse
    else do consume (← flag p s) rest
  | .option s (.value value) :: rest => do consume (← assign p s (kept value)) rest
  | .option s (.letters letters) :: rest => do consume (← flags p s letters) rest
  | w :: rest =>
    consume (operands p (w :: rest.takeWhile isOperand)) (rest.dropWhile isOperand)
termination_by words.length
decreasing_by
  · simp
  · simp only [List.length_cons]
    omega
  · simp
  · simp
  · simp
  · exact Nat.lt_succ_of_le (List.dropWhile_sublist _).length_le

def read (arguments : List Text) : Except Refusal Request := do
  let p ← consume {} (← words arguments)
  if p.hasPaths && !p.hasExtras then return p.request else throw .misuse

end Arguments

end FragmentLint
