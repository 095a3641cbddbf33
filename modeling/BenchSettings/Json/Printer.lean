/-
BenchSettings.Json.Printer — JSON values as text.

Values are printed over several lines, two blanks of indentation for each
level; an empty array or object stays on its line. In strings only the quote,
the backslash, the control characters and halves of surrogate pairs are
escaped, the common ones with their letter and the rest with four hex digits. A
number that is not finite is printed as `null`.

`print` prints a value as it stands and `serialize` its canonical form, so
that the members of every object come in one order.
-/
import BenchSettings.Json.Basic
import BenchSettings.Number.Shortest
import BenchSettings.Text.Hex

namespace BenchSettings.Json

open Text (Sign Spelled)

variable {τ : Type} [Spelled τ]

/-! ## 1. Scalars -/

/-- The escape of a unit with four hex digits. -/
def escapeUnit (unit : Nat) : List Char :=
  '\\' :: 'u' :: [unit / 0x1000, unit / 0x100 % 16, unit / 16 % 16, unit % 16].map Text.Hex.lower

def escapeChar (c : Char) : List Char :=
  if c = '"' then ['\\', '"']
  else if c = '\\' then ['\\', '\\']
  else if ' ' ≤ c then [c]
  else if c = '\x08' then ['\\', 'b']
  else if c = '\t' then ['\\', 't']
  else if c = '\n' then ['\\', 'n']
  else if c = '\x0c' then ['\\', 'f']
  else if c = '\r' then ['\\', 'r']
  else escapeUnit c.toNat

def escapeSign : Sign → List Char
  | .char c => escapeChar c
  | .half unit => escapeUnit unit

def quote (s : τ) : List Char := '"' :: ((Spelled.signs s).flatMap escapeSign ++ ['"'])

def numberText : Number → List Char
  | .infinite _ | .nan => "null".toList
  | n => n.text.toList

/-! ## 2. Values -/

def indent (level : Nat) : List Char := List.replicate (2 * level) ' '

/-- What stands after an item or a member: a comma if more follow, and the end of the line. -/
def separator {α : Type} : List α → List Char
  | [] => ['\n']
  | _ :: _ => [',', '\n']

mutual

/-- A value whose first line starts somewhere on a line of the given level. -/
def print (level : Nat) : JsonOf τ → List Char
  | .null => "null".toList
  | .bool true => "true".toList
  | .bool false => "false".toList
  | .number n => numberText n
  | .string s => quote s
  | .array [] => ['[', ']']
  | .array (item :: rest) =>
    '[' :: '\n' :: (printItems (level + 1) (item :: rest) ++ indent level ++ [']'])
  | .object [] => ['\x7b', '\x7d']
  | .object (member :: rest) =>
    '\x7b' :: '\n' :: (printMembers (level + 1) (member :: rest) ++ indent level ++ ['\x7d'])
termination_by structural v => v

def printItems (level : Nat) : List (JsonOf τ) → List Char
  | [] => []
  | item :: rest => indent level ++ print level item ++ separator rest ++ printItems level rest
termination_by structural items => items

def printMembers (level : Nat) : List (τ × JsonOf τ) → List Char
  | [] => []
  | (name, value) :: rest =>
    indent level ++ quote name ++ [':', ' '] ++ print level value ++ separator rest ++
      printMembers level rest
termination_by structural members => members

end

/-- The text of a value as it stands. -/
def toText (v : JsonOf τ) : String := String.ofList (print 0 v)

/-- The canonical text of a value. -/
def serialize (v : Json) : String := toText v.canonical

end BenchSettings.Json
