/-
BenchSettings.Proofs.Loading.Seen — what a run sees of an environment.

Loading looks at the variables of the thirteen settings and the table of a run
at one more. Environments that say the same of these variables are the same to
a run: they load alike (`load_congr`) and their tables are alike
(`summary_congr`), whatever else they hold and in whatever order.
-/
import BenchSettings.Proofs.Loading.Warnings
import BenchSettings.Report.Summary

namespace BenchSettings

namespace Environment

/-- Loading sees the variables of the settings and nothing else. -/
theorem load_congr {env other : Environment}
    (settings : ∀ s : Setting, other.get? s.name = env.get? s.name)
    (pattern : other.get? fillPatternVariable = env.get? fillPatternVariable) :
    other.load = env.load := by
  have switches : other.switchValue = env.switchValue := by
    funext s
    rw [switchValue, switchValue, reading_congr (settings (.switch s))]
  have quantities : other.quantityValue = env.quantityValue := by
    funext q
    rw [quantityValue, quantityValue, reading_congr (settings (.quantity q))]
  have text : other.patternText = env.patternText := pattern
  have breach : other.firstBreach? = env.firstBreach? := by
    rw [firstBreach?, quantities, firstBreach?]
  have loaded (bytes : List UInt8) : other.configurationOf bytes = env.configurationOf bytes := by
    rw [configurationOf, switches, quantities, text, configurationOf]
  simp only [load_eq, text, breach, loaded, warnings_congr settings]

end Environment

/-- The table of a run sees one variable more. -/
theorem Report.summary_congr {env other : Environment} (c : Configuration)
    (same : other.get? sdmaVariable = env.get? sdmaVariable) :
    summary c other = summary c env := by
  simp only [summary, rows, sdmaRow, same]

end BenchSettings
