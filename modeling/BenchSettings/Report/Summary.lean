/-
BenchSettings.Report.Summary — the table printed at the start of a run.

Each setting has a row with its variable, its value and what the value means.
Columns are padded to fixed widths, so the values of switches and quantities
stand in line. One row is about a variable that is no setting: which copy
engines the runtime uses, shown only while runtime copies are in play.

A run that writes CSV to its output prints no table, so that nothing stands
before the CSV.
-/
import BenchSettings.Configuration
import BenchSettings.Fill.Element
import BenchSettings.Number.Shortest
import BenchSettings.Text.Lines

namespace BenchSettings.Report

/-! ## 1. Rows -/

/-- One line of the table. -/
structure Row where
  name : String
  value : String
  description : String
  deriving DecidableEq, Repr

def nameWidth : Nat := 20

def valueWidth : Nat := 12

/-- The line of a row: the name to the left, the value to the right of its column. -/
def Row.text (r : Row) : String :=
  Text.padEnd nameWidth r.name ++ " = " ++ Text.padStart valueWidth r.value ++ " : " ++
    r.description

/-! ## 2. What the values mean -/

/-- What the state of a switch means. The table is not printed while CSV is on. -/
def switchDescription : Switch → Bool → String
  | .hipCall, true => "Using HIP functions for GPU-executed copies"
  | .hipCall, false => "Using custom kernels for GPU-executed copies"
  | .memset, true => "Performing memset"
  | .memset, false => "Performing memcopy"
  | .singleSync, true => "Synchronizing only once, after all iterations"
  | .singleSync, false => "Synchronizing per iteration"
  | .interactive, true => "Running in interactive mode"
  | .interactive, false => "Running in non-interactive mode"
  | .combineTiming, true => "Using combined timing+launch"
  | .combineTiming, false => "Using separate timing / launch"
  | .showAddr, true => "Displaying src/dst mem addresses"
  | .showAddr, false => "Not displaying src/dst mem addresses"
  | .csv, _ => "Output to console"

def quantityDescription (q : Quantity) (value : String) : String :=
  match q with
  | .byteOffset => "Using byte offset of " ++ value
  | .warmups => "Running " ++ value ++ " warmup iteration(s) per topology"
  | .iterations => "Running " ++ value ++ " timed iteration(s) per topology"
  | .samplingFactor =>
    "Adding " ++ value ++ " sample(s) between powers of 2 for generated sizes"
  | .cpuPerLink => "Using " ++ value ++ " CPU thread(s) per CPU-based-copy Link"

def pseudoRandomDescription : String :=
  "Pseudo-random: (Element i = i modulo " ++ Text.decimal fillModulus ++ " + " ++
    Text.decimal fillOffset ++ ")"

/-! ## 3. The table -/

/-- The row of a switch, which shows 1 or 0. -/
def switchRow (c : Configuration) (s : Switch) : Row :=
  ⟨s.name, if c.switch s then "1" else "0", switchDescription s (c.switch s)⟩

def quantityRow (c : Configuration) (q : Quantity) : Row :=
  let value := (Number.integer (c.quantity q)).text
  ⟨q.name, value, quantityDescription q value⟩

/-- The row about the copy engines, from the environment. -/
def sdmaRow (env : Environment) : Row :=
  let sdma := env.get? sdmaVariable
  ⟨sdmaVariable, sdma.getD "(unset)",
    if sdma = some "0" then "Using blit kernels for hipMemcpy" else "Using DMA copy engines"⟩

/-- Whether copies are made by the runtime, so that its copy engines matter. -/
def usesRuntimeCopies (c : Configuration) : Bool := c.switch .hipCall && !c.switch .memset

/-- The row of the fill pattern. It shows the text if there are bytes that it spells. -/
def patternRow (c : Configuration) : Row :=
  match c.patternText with
  | none => ⟨fillPatternVariable, "(unspecified)", pseudoRandomDescription⟩
  | some text =>
    ⟨fillPatternVariable, "(specified)",
      if c.pattern = [] then pseudoRandomDescription else "Pattern: " ++ text⟩

def rows (c : Configuration) (env : Environment) : List Row :=
  [switchRow c .hipCall, switchRow c .memset] ++
    (if usesRuntimeCopies c then [sdmaRow env] else []) ++
    [Switch.singleSync, .interactive, .combineTiming, .showAddr, .csv].map (switchRow c) ++
    Quantity.all.map (quantityRow c) ++
    [patternRow c]

def heading : List String := ["Run configuration", String.ofList (List.replicate 53 '=')]

/-- The table of a configuration; nothing at all while CSV is on. The environment is asked for the
copy engines only. -/
def summary (c : Configuration) (env : Environment) : String :=
  if c.switch .csv then ""
  else Text.unlines (heading ++ (rows c env).map Row.text)

/-- No table is printed exactly while CSV is on. -/
theorem summary_eq_empty_iff (c : Configuration) (env : Environment) :
    summary c env = "" ↔ c.switch .csv = true := by
  unfold summary
  by_cases h : c.switch .csv = true
  · simp [h]
  · have : (Text.unlines (heading ++ (rows c env).map Row.text)).toList ≠ [] := by
      simp [Text.toList_unlines, heading]
    simp only [h, Bool.false_eq_true, if_false, iff_false]
    intro e
    rw [e] at this
    exact this rfl

end BenchSettings.Report
