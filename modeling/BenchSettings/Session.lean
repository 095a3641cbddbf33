/-
BenchSettings.Session — settings that change layer by layer.

A session starts with no variables and gets one layer after the other. After
every layer it shows the environment that all layers so far have left, what
loading it gives, and the table of the run if it loads.
-/
import BenchSettings.Report.Summary
import BenchSettings.Resolved

namespace BenchSettings

def Resolved.summary? (r : Resolved) : Option String :=
  match r.result with
  | .ok loaded => some (Report.summary loaded.configuration r.environment)
  | .error _ => none

namespace Session

/-- The environments that layers leave one after the other, laid over a first one. -/
def environments (start : Environment) : List Environment → List Environment
  | [] => []
  | layer :: rest =>
    Environment.merge [start, layer] :: environments (Environment.merge [start, layer]) rest

/-- What a session shows after each of its layers. -/
def steps (layers : List Environment) : List Resolved :=
  (environments .empty layers).map Resolved.ofEnvironment

theorem length_steps (layers : List Environment) : (steps layers).length = layers.length := by
  have general : ∀ start, (environments start layers).length = layers.length := by
    induction layers with
    | nil => intro start; rfl
    | cons layer rest ih => intro start; simp [environments, ih]
  simp [steps, general]

end Session

end BenchSettings
