import FragmentLint.CommandLine.Run

/-!
# The program

Reads the files that the arguments name and shows what the command line makes of them. No
bridge can be started from here, so every parser is reported as missing and only the
checks without a parser tell more.
-/

namespace FragmentLint

def readFile (path : Text) : IO (Except FileFault (List UInt8)) := do
  try
    let bytes ← IO.FS.readBinFile (String.ofList path)
    return .ok bytes.toList
  catch
    | .noFileOrDirectory .. => return .error .missing
    | .inappropriateType _ number details =>
      if number = 20 then return .error .notDirectory
      else if number = 21 then return .error .isDirectory
      else return .error (.other number.toNat details.toList)
    | e => return .error (.other 5 (toString e).toList)

/-- The files that a request names, read in advance. -/
def readFiles (arguments : List Text) : IO Files := do
  let paths := match Arguments.read arguments with
    | .ok request => request.paths.map fun path => (Path.ofText path).text
    | .error _ => []
  let contents ← paths.mapM fun path => return (path, ← readFile path)
  return fun path => (contents.lookup path).getD (.error .missing)

def readEnvironment : IO Environment := do
  let names := ["FENCELINT_NODE", "FENCELINT_NODE_PACKAGE_DIR", "FENCELINT_NODE_TIMEOUT"]
  let values ← names.mapM fun name => return (name, ← IO.getEnv name)
  return values.filterMap fun (name, value) => value.map fun v => (name.toList, v.toList)

def bareSite (environment : Environment) : Site :=
  { environment
    launch := fun _ => .error "No such file or directory"
    runScript := fun _ _ => .refused "No such file or directory" }

/-- What is shown to a user who asks for help or makes a mistake. -/
def usage : String :=
  "usage: fencelint [-h] [--basic] [--display-mode] [--strict] [--format FORMAT] " ++
    "[--rule NAME] [-v] PATH [PATH ...]"

end FragmentLint

open FragmentLint Host.Usual in
/-- The program: its arguments, what it shows and how it ends. -/
def main (args : List String) : IO UInt32 := do
  let arguments := args.map String.toList
  let files ← readFiles arguments
  let site := bareSite (← readEnvironment)
  let color ← (← IO.getStdout).isTty
  match CommandLine.run files site (.utf8 color) arguments with
  | some (.refused .help) =>
    IO.println usage
    return 0
  | some (.refused .misuse) =>
    IO.eprintln usage
    return 2
  | some (.done outcome) =>
    IO.print (String.ofList outcome.output)
    IO.eprint (String.ofList outcome.errors)
    return outcome.exit.toUInt32
  | some (.broke fault) =>
    IO.eprintln (String.ofList fault.asDefect.failure.message)
    return 1
  | none => return 1
