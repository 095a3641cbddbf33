/-
BenchSettings.EnvFile.Entries — the variables that a value sets.

An env file holds one map from variable names to scalars. A name is an
upper-case identifier. A scalar is taken as its text, with the truth values as
1 and 0. The issues of a map are those of its members in their order, a bad
name before a bad value, and no member hides another.

The texts of a file are loose, and so are those that it sets (`entriesOf`). An
environment holds what is shown of them, with the replacement character for
every half of a pair (`environmentOf`).
-/
import BenchSettings.Check.Issue
import BenchSettings.Environment

namespace BenchSettings.EnvFile

open Check (Fault Issue Kind)
open Text (Loose)

/-! ## 1. Names -/

def isNameStart (c : Char) : Bool := decide ('A' ≤ c) && decide (c ≤ 'Z')

def isNamePart (c : Char) : Bool := isNameStart c || c.isDigit || c == '_'

def isVariableName (name : String) : Bool :=
  match name.toList with
  | [] => false
  | c :: rest => isNameStart c && rest.all isNamePart

/-! ## 2. Values -/

/-- The text that a variable is set to by a text: the truth values mean 1 and 0. -/
def settingText (text : Loose) : Loose :=
  if text = "true" then "1" else if text = "false" then "0" else text

/-- The text that a variable is set to by a value. -/
def valueText : JsonOf Loose → Loose
  | .string text => settingText text
  | .number n => n.text
  | .bool true => "1"
  | .bool false => "0"
  | .null | .array _ | .object _ => ""

/-- The faults of a value, which has to be a scalar. -/
def valueFaults : JsonOf Loose → List Fault
  | .string _ | .number _ | .bool _ => []
  | v => [.noAlternative [.string, .number, .boolean] (Kind.ofJson v)]

/-! ## 3. Maps -/

def memberIssues (member : Loose × JsonOf Loose) : List Issue :=
  Issue.under [member.1]
    ((if isVariableName member.1.shown then [] else [.badName]) ++ valueFaults member.2)

/-- The variables that a value sets, each with its text, or what is wrong with the value. No value
at all sets nothing. -/
def entriesOf : JsonOf Loose → Except (List Issue) (List (Loose × Loose))
  | .null => .ok []
  | .object members =>
    match members.flatMap memberIssues with
    | [] => .ok (members.map fun (name, value) => (name, valueText value))
    | issues => .error issues
  | v => .error [⟨[], .wrongKind .object (Kind.ofJson v)⟩]

/-- The environment of variables with loose texts, as they are shown. -/
def shownEnvironment (entries : List (Loose × Loose)) : Environment :=
  .ofList (entries.map fun (name, text) => (name.shown, some text.shown))

def environmentOf (v : JsonOf Loose) : Except (List Issue) Environment :=
  (entriesOf v).map shownEnvironment

end BenchSettings.EnvFile
