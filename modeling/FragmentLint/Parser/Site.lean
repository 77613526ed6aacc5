import FragmentLint.Bridge.Script
import FragmentLint.Bridge.Session
import FragmentLint.Bridge.Shared

/-!
# Where parsers run

A site tells how parsers can be run: the settings, and what happens when a process is
started. What happens may differ from one start to the next, so starts are numbered. The
world is what came of it so far: the processes that were started, what they were given and
how they ended.
-/

namespace FragmentLint

namespace Family

def parser : Family → Text
  | .mermaid => "mermaid"
  | .math => "katex"

end Family

structure Spawn where
  /-- The family whose parser was to be run. -/
  family : Family
  executable : Text
  packageDir : Option Text
  deriving DecidableEq, Repr

/-- What can be run, and how. -/
structure Site where
  environment : Environment := []
  /-- The settings, unless they are left to the environment. -/
  settings : Option Settings := none
  /-- How the session of a given number behaves, or why it cannot be started. -/
  launch : Nat → Except Text Behaviour
  /-- How the run of a script of a given number ends. -/
  runScript : Nat → ScriptCall → ScriptEnd

/-- What was run so far. -/
structure World where
  /-- All attempts to start a process, in order. -/
  spawns : List Spawn := []
  /-- The sessions whose processes were started, in order. -/
  sessions : List Session := []
  /-- The inputs of the scripts that were run, in order. -/
  inputs : List Text := []

namespace World

/-- The number of attempts to start the parser of a family. -/
def attempts (w : World) (f : Family) : Nat :=
  w.spawns.countP (·.family = f)

def written (w : World) : List Text :=
  w.sessions.flatMap (·.child.written)

end World

namespace Site

/-- The settings that hold when a process is about to be started. -/
def settings? (site : Site) : Except BridgeFault Settings :=
  match site.settings with
  | some settings => .ok settings
  | none => match Settings.ofEnv site.environment with
    | .ok settings => .ok settings
    | .error fault => .error (.invalidSettings fault)

def startSession [Host] (site : Site) (settings : Settings) (w : World) :
    Startup × List Notice × World :=
  let number := w.attempts .mermaid
  let w := { w with
    spawns := w.spawns ++ [⟨.mermaid, settings.executable, settings.packageDir⟩] }
  let starting := Notice.starting settings.executable
  match site.launch number with
  | .error reason =>
    (.failed (.bridge (.cannotRun settings.executable reason)), [starting], w)
  | .ok behaviour =>
    let child := Child.start behaviour
    match Session.connect child settings.timeout with
    | none => (.pending, [starting], { w with sessions := w.sessions ++ [.ofChild child] })
    | some (outcome, session, noted) =>
      let startup : Startup := match outcome with
        | .ok () => .live w.sessions.length
        | .error fault => .failed fault
      (startup, starting :: noted, { w with sessions := w.sessions ++ [session] })

/-- The start of a session, if the settings allow one. -/
def start [Host] (site : Site) (w : World) : Startup × List Notice × World :=
  match site.settings? with
  | .error fault => (.failed (.bridge fault), [], w)
  | .ok settings => site.startSession settings w

def request [Host] (n : Nat) (payload : Json.Members) (w : World) :
    Option (Except Fault Json.Members × World) :=
  match w.sessions[n]? with
  | none => none
  | some session => (session.request payload).map fun (answer, session) =>
      (answer, { w with sessions := w.sessions.set n session })

def close (n : Nat) (w : World) : List Notice × World :=
  match w.sessions[n]? with
  | none => ([], w)
  | some session =>
    let (session, noted) := session.close
    (noted, { w with sessions := w.sessions.set n session })

def kill (n : Nat) (w : World) : World :=
  match w.sessions[n]? with
  | none => w
  | some session => { w with sessions := w.sessions.set n session.kill }

def keeper [Host] (site : Site) : Keeper World :=
  { start := site.start, request, close, kill }

/-- The answer of a script to a request under given settings. -/
def runOnce [Host] (site : Site) (payload : Json.Members) (settings : Settings)
    (w : World) : Except Fault Json.Members × World :=
  let call := Script.call payload settings
  let ending := site.runScript (w.attempts .math) call
  let inputs := match ending with
    | .refused _ => []
    | .finished .. | .undecodable .. => [call.input]
  (Script.reply settings.executable ending,
    { w with spawns := w.spawns ++ [⟨.math, settings.executable, settings.packageDir⟩]
             inputs := w.inputs ++ inputs })

end Site

end FragmentLint
