/-
BenchSettings.Setting.Table — the settings of a benchmark run.

Seven switches, five bounded quantities and one fill pattern. For each of
them this table says under which variable it is set and under which field it
is reported; for a quantity also its default and the rule that its value must
obey, with the code and the wording of a breach. Everything that reads,
checks, prints or documents settings goes through the table, in its order.
-/

namespace BenchSettings

/-! ## 1. Switches -/

/-- A setting that is on or off. -/
inductive Switch where
  | hipCall
  | memset
  | singleSync
  | interactive
  | combineTiming
  | showAddr
  | csv
  deriving DecidableEq, Repr

namespace Switch

/-- All switches, in the order in which they are read and reported. -/
def all : List Switch :=
  [.hipCall, .memset, .singleSync, .interactive, .combineTiming, .showAddr, .csv]

theorem mem_all (s : Switch) : s ∈ all := by cases s <;> decide

def name : Switch → String
  | .hipCall => "USE_HIP_CALL"
  | .memset => "USE_MEMSET"
  | .singleSync => "USE_SINGLE_SYNC"
  | .interactive => "USE_INTERACTIVE"
  | .combineTiming => "COMBINE_TIMING"
  | .showAddr => "SHOW_ADDR"
  | .csv => "OUTPUT_TO_CSV"

def field : Switch → String
  | .hipCall => "useHipCall"
  | .memset => "useMemset"
  | .singleSync => "useSingleSync"
  | .interactive => "useInteractive"
  | .combineTiming => "combineTiming"
  | .showAddr => "showAddr"
  | .csv => "outputToCsv"

end Switch

/-! ## 2. Quantities -/

/-- A setting that is a whole number within bounds. -/
inductive Quantity where
  | byteOffset
  | warmups
  | iterations
  | samplingFactor
  | cpuPerLink
  deriving DecidableEq, Repr

/-- What the value of a quantity must obey. -/
inductive Rule where
  | multipleOf (step : Nat)
  | atLeast (least : Int)
  deriving DecidableEq, Repr

def Rule.holds : Rule → Int → Bool
  | .multipleOf step, n => n % step == 0
  | .atLeast least, n => decide (least ≤ n)

/-- The bytes in one element, a single-precision number. -/
def elementSize : Nat := 4

namespace Quantity

/-- All quantities, in the order in which they are read, checked and reported. -/
def all : List Quantity := [.byteOffset, .warmups, .iterations, .samplingFactor, .cpuPerLink]

theorem mem_all (q : Quantity) : q ∈ all := by cases q <;> decide

def name : Quantity → String
  | .byteOffset => "BYTE_OFFSET"
  | .warmups => "NUM_WARMUPS"
  | .iterations => "NUM_ITERATIONS"
  | .samplingFactor => "SAMPLING_FACTOR"
  | .cpuPerLink => "NUM_CPU_PER_LINK"

def field : Quantity → String
  | .byteOffset => "byteOffset"
  | .warmups => "numWarmups"
  | .iterations => "numIterations"
  | .samplingFactor => "samplingFactor"
  | .cpuPerLink => "numCpuPerLink"

/-- The value while the variable is unset. -/
def default : Quantity → Int
  | .byteOffset => 0
  | .warmups => 3
  | .iterations => 10
  | .samplingFactor => 1
  | .cpuPerLink => 4

def rule : Quantity → Rule
  | .byteOffset => .multipleOf elementSize
  | .warmups => .atLeast 0
  | .iterations => .atLeast 1
  | .samplingFactor => .atLeast 1
  | .cpuPerLink => .atLeast 1

def code : Quantity → String
  | .byteOffset => "INVALID_BYTE_OFFSET"
  | .warmups => "INVALID_WARMUP_COUNT"
  | .iterations => "INVALID_ITERATION_COUNT"
  | .samplingFactor => "INVALID_SAMPLING_FACTOR"
  | .cpuPerLink => "INVALID_THREAD_COUNT"

def ruleText : Quantity → String
  | .byteOffset => "BYTE_OFFSET must be set to multiple of 4"
  | .warmups => "NUM_WARMUPS must be set to a non-negative number"
  | .iterations => "NUM_ITERATIONS must be set to a positive number"
  | .samplingFactor => "SAMPLING_FACTOR must be greater or equal to 1"
  | .cpuPerLink => "NUM_CPU_PER_LINK must be greater or equal to 1"

/-- An unset quantity is never at fault. -/
theorem holds_default (q : Quantity) : q.rule.holds q.default = true := by cases q <;> decide

end Quantity

/-! ## 3. The settings that are whole numbers -/

/-- A switch or a quantity: the settings that are read as whole numbers. -/
inductive Setting where
  | switch (s : Switch)
  | quantity (q : Quantity)
  deriving DecidableEq, Repr

namespace Setting

def all : List Setting := Switch.all.map .switch ++ Quantity.all.map .quantity

theorem mem_all (s : Setting) : s ∈ all := by
  cases s with
  | switch s => simp [all, Switch.mem_all]
  | quantity q => simp [all, Quantity.mem_all]

def name : Setting → String
  | .switch s => s.name
  | .quantity q => q.name

def default : Setting → Int
  | .switch _ => 0
  | .quantity q => q.default

end Setting

/-! ## 4. Variables that are texts -/

def fillPatternVariable : String := "FILL_PATTERN"

/-- The variable that steers the copy engines. It is reported in the run summary and is no setting
of the benchmark. -/
def sdmaVariable : String := "HSA_ENABLE_SDMA"

/-- The names of all variables that a run looks at. -/
def variableNames : List String :=
  Setting.all.map Setting.name ++ [fillPatternVariable, sdmaVariable]

end BenchSettings
