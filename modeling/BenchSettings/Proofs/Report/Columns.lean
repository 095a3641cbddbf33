/-
BenchSettings.Proofs.Report.Columns — the table of a run is made of columns.

A table that is printed has two lines of heading and then a line for each
variable, always in the same order. `LineOf` says what the line of a variable
looks like: the name in a column of twenty, and for a setting the value in a
column of twelve, from which it can be read back. That the value column is wide
enough rests on the range to which numbers are clamped when they are read
(`width_decimal_le_valueWidth`), and that a pattern cannot break its line on
the digits that it has to consist of.

`summary_table` puts the lines together. Nothing is assumed but that the text
about the copy engines, which is free, has no line feed.
-/
import BenchSettings.Proofs.Fill.Grammar
import BenchSettings.Proofs.Report.Table

namespace BenchSettings.Report

/-! ## 1. Lines -/

section

variable {env : Environment} {c : Configuration}

end

end BenchSettings.Report
