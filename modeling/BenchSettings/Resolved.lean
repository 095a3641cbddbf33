/-
BenchSettings.Resolved — the settings of a run, out of its layers.

Variables come from up to two places: a file that the user names, and the
environment of the process, which is laid over the file. The result keeps the
merged environment beside what loading it gave, because the table that a run
prints also shows a variable that is no setting.
-/
import BenchSettings.EnvFile.Load
import BenchSettings.Loading

namespace BenchSettings

/-- An environment with what loading it gives. -/
structure Resolved where
  environment : Environment
  result : Except LoadError Loaded

def Resolved.ofEnvironment (env : Environment) : Resolved := ⟨env, env.load⟩

/-- Loads the configuration of a process, with the variables of an env file under its own. -/
def resolve (files : Files) (process : Environment) (envFile : Option String) :
    Except EnvFile.EnvFileError Resolved :=
  match envFile with
  | none => .ok (.ofEnvironment (.merge [.empty, process]))
  | some path => (EnvFile.load files path).map fun env => .ofEnvironment (.merge [env, process])

end BenchSettings
