/-
BenchSettings.Command.Help — what the program says about itself.
-/
import BenchSettings.Command.Request
import BenchSettings.Text.Lines

namespace BenchSettings.Command

def programName : String := "xferbench-config"

def version : String := "0.1.0"

def programHelp : String :=
  Text.unlines
    ["Usage: " ++ programName ++ " [options] [command]",
     "",
     "Load, validate and display the environment configuration of a memory-transfer",
     "benchmark.",
     "",
     "Options:",
     "  -V, --version   output the version number",
     "  -h, --help      display help for command",
     "",
     "Commands:",
     "  show [options]  Load the configuration from the environment and print it",
     "  usage           List the environment variables the benchmark reads",
     "  help [command]  display help for command"]

def Subcommand.description : Subcommand → String
  | display => "Load the configuration from the environment and print it"
  | usage => "List the environment variables the benchmark reads"

/-- The options of a subcommand, each with what it does. -/
def Subcommand.optionLines : Subcommand → List String
  | display =>
    ["  --json             Output JSON to stdout",
     "  --env-file <path>  YAML or JSON file of variables under the process",
     "                     environment",
     "  -h, --help         display help for command"]
  | usage => ["  -h, --help  display help for command"]

def Subcommand.help (s : Subcommand) : String :=
  Text.unlines <|
    ["Usage: " ++ programName ++ " " ++ s.name ++ " [options]",
     "",
     s.description,
     "",
     "Options:"] ++ s.optionLines

end BenchSettings.Command
