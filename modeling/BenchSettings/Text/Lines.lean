/-
BenchSettings.Text.Lines — texts made of lines.

Every line of a written text ends with a line feed (`unlines`).
-/

namespace BenchSettings.Text

/-- The text of some lines, a line feed after each. -/
def unlines (lines : List String) : String := String.join (lines.map (· ++ "\n"))

theorem toList_unlines (lines : List String) :
    (unlines lines).toList = lines.flatMap fun line => line.toList ++ ['\n'] := by
  simp [unlines, String.toList_join, List.flatMap_map]

theorem unlines_singleton (line : String) : unlines [line] = line ++ "\n" := by
  simp [unlines]

/-- One line for each item. -/
theorem unlines_map {α : Type} (line : α → String) (items : List α) :
    unlines (items.map line) = String.join (items.map fun item => line item ++ "\n") := by
  rw [unlines, List.map_map]
  rfl

end BenchSettings.Text
