/-
BenchSettings.Command.Suggestion — which option was meant.

An unknown long option is compared with the long options that could stand
there. Those with the fewest mistakes between them and the unknown one are
suggested, if there are at most three mistakes and the rest of the word is right.
-/
import BenchSettings.Command.Request
import BenchSettings.Text.Distance
import BenchSettings.Text.Units

namespace BenchSettings.Command

/-- The words of the long options that can stand after a subcommand, in alphabetical order. -/
def Subcommand.words : Subcommand → List String
  | display => ["env-file", "help", "json", "version"]
  | usage => ["help", "version"]

def mostMistakes : Nat := 3

/-- How many mistakes lie between two words, if they are similar: there are few of them, and more
than two fifths of the longer word are right. -/
def mistakes? (word candidate : String) : Option Nat :=
  let given := Text.units word
  let meant := Text.units candidate
  let length := max given.length meant.length
  if length ≤ min given.length meant.length + mostMistakes then
    let mistakes := Text.distance given meant
    if mistakes ≤ mostMistakes ∧ 2 * length < 5 * (length - mistakes) then some mistakes else none
  else none

/-- The candidates that are similar to a word, less those with more mistakes than another. -/
def similar (word : String) (candidates : List String) : List String :=
  let rated := candidates.filterMap fun c => (mistakes? word c).map (c, ·)
  (rated.filter fun (_, mistakes) => rated.all fun (_, other) => mistakes ≤ other).map (·.1)

/-- The remark on what an unknown option may have been meant to be. -/
def suggestion (s : Subcommand) (option : String) : String :=
  match option.toList with
  | '-' :: '-' :: word =>
    match similar (String.ofList word) s.words with
    | [] => ""
    | [one] => "\n(Did you mean --" ++ one ++ "?)"
    | several =>
      "\n(Did you mean one of " ++ String.intercalate ", " (several.map ("--" ++ ·)) ++ "?)"
  | _ => ""

def ArgumentError.message : ArgumentError → String
  | .missingPath => "error: option '--env-file <path>' argument missing"
  | .unknownOption s option => "error: unknown option '" ++ option ++ "'" ++ suggestion s option

end BenchSettings.Command
