import FragmentLint.ConfigFault
import FragmentLint.Number.Reading

/-!
# Settings of the bridges

A parser runs in a process of its own, the bridge. The settings name the program that runs
it, the directory where that program finds its packages, and the time a session may take
to start. They are given by hand or read from three environment variables.
-/

namespace FragmentLint

abbrev Environment := List (Text × Text)

namespace Environment

def get? (e : Environment) (name : Text) : Option Text :=
  e.lookup name

/-- The value of a variable, if it is set to a text that is not empty. -/
def nonempty? (e : Environment) (name : Text) : Option Text :=
  (e.get? name).bind Text.nonempty?

end Environment

structure Settings where
  /-- The program to run. -/
  executable : Text
  /-- The directory to run it in. -/
  packageDir : Option Text
  /-- The seconds that a session may take to start; without a limit it may take for ever. -/
  timeout : Option Number
  executable_ne_nil : executable ≠ []
  timeout_ok : timeout.all (!·.isNonpositive) = true
  deriving Repr

namespace Settings

/-- The program that is run unless another one is named. -/
def defaultExecutable : Text := "node"

/-- The seconds that a session may take to start unless a setting says otherwise. -/
def defaultTimeout : Number :=
  .real (.ofDecimal false 60 0)

def make? (executable : Text) (packageDir : Option Text) (timeout : Option Number) :
    Except ConfigFault Settings :=
  if hexe : executable = [] then .error .emptyExecutable
  else match timeout with
    | none => .ok ⟨executable, packageDir, none, hexe, rfl⟩
    | some t =>
      if ht : t.isNonpositive then .error (.timeout t)
      else .ok ⟨executable, packageDir, some t, hexe, by simpa using ht⟩

/-- The limit of time that a text asks for. Zero asks for none. -/
def timeoutOf (t : Text) : Except ConfigFault (Option Number) :=
  match Binary64.ofText? t with
  | none => .error (.timeoutText t)
  | some x => .ok (if x.isZero then none else some (.real x))

def ofEnv (env : Environment) : Except ConfigFault Settings := do
  let timeout ← match env.get? "FENCELINT_NODE_TIMEOUT" with
    | none => .ok (some defaultTimeout)
    | some t => timeoutOf t
  make? ((env.nonempty? "FENCELINT_NODE").getD defaultExecutable)
    (env.nonempty? "FENCELINT_NODE_PACKAGE_DIR") timeout

end Settings

end FragmentLint
