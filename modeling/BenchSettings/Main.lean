/-
BenchSettings.Main — the command line.

Reads the variables and the files that a run looks at, lets `runInDirectory`
decide everything, and writes what it says.
-/
import BenchSettings.Command.Outcome

open BenchSettings

namespace BenchSettings.Main

/-- The environment of the process, as far as a run looks at it. -/
def processEnvironment : IO Environment := do
  let entries ← variableNames.mapM fun name => do return (name, ← IO.getEnv name)
  return .ofList entries

/-- Why reading a file failed. A path through a file cannot be opened; a directory can, but not be
read, and then the error names no file. -/
def fileError (path : String) (e : IO.Error) : FileError :=
  match e with
  | .noFileOrDirectory .. => .notFound path
  | .permissionDenied .. => .denied path
  | .inappropriateType (some _) .. => .notDirectory path
  | .inappropriateType none .. => .isDirectory
  | e => .other (toString e)

def readFile (path : String) : IO (Except FileError (List UInt8)) := do
  try
    let bytes ← IO.FS.readBinFile path
    return .ok bytes.toList
  catch e => return .error (fileError path e)

/-- The files that a run with some arguments looks at. -/
def paths (arguments : List String) : List String :=
  match Command.Request.ofArguments arguments with
  | .ok (.display options) => Assignments.fileName :: options.envFile.toList
  | _ => [Assignments.fileName]

def readFiles (paths : List String) : IO Files := do
  let contents ← paths.mapM fun path => do return (path, ← readFile path)
  return fun path => (Named.get? path contents).getD (.error (.notFound path))

end BenchSettings.Main

def main (arguments : List String) : IO UInt32 := do
  let files ← Main.readFiles (Main.paths arguments)
  let outcome := Command.runInDirectory files (← Main.processEnvironment) arguments
  (← IO.getStdout).putStr outcome.stdout
  (← IO.getStderr).putStr outcome.stderr
  return outcome.exit.toUInt32
