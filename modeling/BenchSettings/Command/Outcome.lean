/-
BenchSettings.Command.Outcome — what a run of the program leaves.

A run writes to its output only if it succeeds; what goes wrong, and what a
user should know, goes to the error output, one tagged message after the
other. The exit status tells a faulty configuration (1) from an env file that
cannot be used (4).
-/
import BenchSettings.Assignments
import BenchSettings.Command.Help
import BenchSettings.Command.Suggestion
import BenchSettings.Report.Document
import BenchSettings.Report.Summary
import BenchSettings.Report.Usage
import BenchSettings.Resolved

namespace BenchSettings.Command

/-- The exit status of a run with its two outputs. -/
structure Outcome where
  exit : Nat
  stdout : String
  stderr : String
  deriving DecidableEq, Repr

namespace Outcome

/-- A run that writes a text and succeeds. -/
def printed (text : String) : Outcome := ⟨0, text, ""⟩

/-- A run that ends with an error. -/
def failed (exit : Nat) (message : String) : Outcome := ⟨exit, "", Text.unlines [message]⟩

end Outcome

/-! ## 1. Messages -/

def errorMessage (message : String) : String := "[ERROR] " ++ message

def warningMessage (message : String) : String := "[WARN] " ++ message

def configurationStatus : Nat := 1

def envFileStatus : Nat := 4

/-- The exit status for arguments that ask for nothing. -/
def argumentStatus : Nat := 1

/-! ## 2. Runs -/

/-- The output for a configuration that has loaded. -/
def rendered (json : Bool) (c : Configuration) (env : Environment) : String :=
  if json then Text.unlines [(Report.Document.ofConfiguration c).text] else Report.summary c env

def display (files : Files) (process : Environment) (options : DisplayOptions) : Outcome :=
  match resolve files process options.envFile with
  | .error e => .failed envFileStatus (errorMessage e.message)
  | .ok resolved =>
    match resolved.result with
    | .error e => .failed configurationStatus (errorMessage e.message)
    | .ok loaded =>
      ⟨0, rendered options.json loaded.configuration resolved.environment,
        Text.unlines (loaded.warnings.map fun w => warningMessage w.message)⟩

def Request.outcome (files : Files) (process : Environment) : Request → Outcome
  | .version => .printed (Text.unlines [Command.version])
  | .help none => .printed programHelp
  | .help (some s) => .printed s.help
  | .helpOnNothing => ⟨argumentStatus, "", programHelp⟩
  | .display options => Command.display files process options
  | .usage => .printed Report.usage

def run (files : Files) (process : Environment) (arguments : List String) : Outcome :=
  match Request.ofArguments arguments with
  | .error e => .failed argumentStatus e.message
  | .ok request => request.outcome files process

/-- Runs the program in a directory, where the file `.env` of assignments adds the variables that
the process lacks. The reader of assignments can be told otherwise, by variables of the process
(`DOTENV_CONFIG_PATH` names another file, and with `DOTENV_CONFIG_OVERRIDE` the assignments win) and
by arguments of these names. This is the run of a process that tells it nothing. -/
def runInDirectory (files : Files) (process : Environment) (arguments : List String) : Outcome :=
  run files (.merge [Assignments.environment files, process]) arguments

end BenchSettings.Command
