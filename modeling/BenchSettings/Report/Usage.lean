/-
BenchSettings.Report.Usage — the list of variables that a run reads.
-/
import BenchSettings.Setting.Table
import BenchSettings.Text.Digits
import BenchSettings.Text.Lines
import BenchSettings.Text.Units

namespace BenchSettings.Report

def defaultRemark (q : Quantity) : String := "Defaults to " ++ Text.decimal q.default

/-- Labels and what is said about them. A letter after the name stands for the value. -/
def usageEntries : List (String × String) :=
  [("USE_HIP_CALL",
      "Use HIP runtime copy/set calls instead of custom shader kernels for GPU-executed copies"),
   ("USE_MEMSET", "Perform a memset instead of a copy (ignores source memory)"),
   ("USE_SINGLE_SYNC",
      "Perform synchronization only once after all iterations instead of per iteration"),
   ("USE_INTERACTIVE", "Pause for user-input before starting transfer loop"),
   ("COMBINE_TIMING", "Combines timing with launch (potentially lower timing overhead)"),
   ("SHOW_ADDR", "Print out memory addresses for each Link"),
   ("OUTPUT_TO_CSV", "Outputs to CSV format if set"),
   ("BYTE_OFFSET",
      "Initial byte-offset for memory allocations.  Must be multiple of " ++
        Text.decimal elementSize ++ ". " ++ defaultRemark .byteOffset),
   ("NUM_WARMUPS=W", "Perform W untimed warmup iteration(s) per test. " ++ defaultRemark .warmups),
   ("NUM_ITERATIONS=I", "Perform I timed iteration(s) per test. " ++ defaultRemark .iterations),
   ("SAMPLING_FACTOR=F",
      "Add F samples (when possible) between powers of 2 when auto-generating data sizes"),
   ("NUM_CPU_PER_LINK=C",
      "Use C threads per Link for CPU-executed copies. " ++ defaultRemark .cpuPerLink),
   ("FILL_PATTERN=STR",
      "Fill input buffer with pattern specified in hex digits (0-9,a-f,A-F).  " ++
        "Must be even number of digits")]

def labelWidth : Nat := 18

def usageLine (label description : String) : String :=
  " " ++ Text.padEnd labelWidth label ++ " - " ++ description

def usage : String :=
  Text.unlines <|
    ["Environment variables:", String.ofList (List.replicate 22 '=')] ++
      usageEntries.map fun (label, description) => usageLine label description

end BenchSettings.Report
