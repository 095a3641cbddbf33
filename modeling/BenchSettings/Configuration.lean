/-
BenchSettings.Configuration — configurations, and what loading one can say.

A configuration holds the switches, the quantities and the fill pattern of a
benchmark run. Loading one ends with the configuration and the warnings that
reading it gave rise to, or with the one error that has to be mended first: a
fill pattern that cannot be decoded, or a quantity outside of its rule. The
words of a broken rule come from the check that found it and are kept with the
quantity (`Breach`); the code and the variable are those of the quantity.
-/
import BenchSettings.Fill.Pattern
import BenchSettings.Setting.Reading

namespace BenchSettings

/-! ## 1. Configurations -/

/-- The settings of a benchmark run. The bytes of the fill pattern come with the text they were
decoded from, if there was one. -/
structure Configuration where
  switch : Switch → Bool
  quantity : Quantity → Int
  pattern : List UInt8
  patternText : Option String

/-- A configuration with the warnings that reading it gave rise to. -/
structure Loaded where
  configuration : Configuration
  warnings : List Warning

/-! ## 2. Errors -/

/-- A quantity whose value breaks its rule, with the words of the check that found it. -/
structure Breach where
  quantity : Quantity
  wording : String
  deriving DecidableEq, Repr

inductive LoadError where
  | pattern (error : PatternError)
  | range (breach : Breach)
  deriving DecidableEq, Repr

namespace LoadError

def code : LoadError → String
  | .pattern e => e.code
  | .range b => b.quantity.code

/-- The variable that has to change. -/
def name : LoadError → String
  | .pattern _ => fillPatternVariable
  | .range b => b.quantity.name

def message : LoadError → String
  | .pattern e => e.message
  | .range b => b.wording

end LoadError

end BenchSettings
