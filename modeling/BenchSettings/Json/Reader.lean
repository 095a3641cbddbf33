/-
BenchSettings.Json.Reader — JSON values from text.

The reader takes exactly the texts of RFC 8259, from the first character to
the last, with blanks only where the grammar has them. A number becomes the
nearest double. Strings are read as 16-bit units, so that the two halves of an
escaped surrogate pair meet; what becomes of half a pair on its own is left to
the type of texts. Of several members with one name the last counts.

Every function takes characters and gives what it read with the characters
that follow. Nesting is bounded by the length of the text: reading a value
uses up a character at least at every second step, so twice the length is
more than enough fuel, and `parse?` passes that much.
-/
import BenchSettings.Json.Basic
import BenchSettings.Number.Nearest
import BenchSettings.Text.Hex

namespace BenchSettings.Json

open Text (Spelled)

variable {τ : Type} [Spelled τ] [DecidableEq τ]

/-! ## 1. Blanks and words -/

/-- The four characters that may stand between tokens. -/
def isGap (c : Char) : Bool := c == ' ' || c == '\t' || c == '\n' || c == '\r'

def skipGap (cs : List Char) : List Char := cs.dropWhile isGap

/-- The text after a word it has to start with. -/
def afterWord? : List Char → List Char → Option (List Char)
  | [], cs => some cs
  | w :: word, c :: cs => if w = c then afterWord? word cs else none
  | _ :: _, [] => none

/-! ## 2. Strings -/

def escapedUnit? : Char → Option Nat
  | '"' => some 0x22
  | '\\' => some 0x5c
  | '/' => some 0x2f
  | 'b' => some 0x08
  | 'f' => some 0x0c
  | 'n' => some 0x0a
  | 'r' => some 0x0d
  | 't' => some 0x09
  | _ => none

/-- The units of a string up to its closing quote, and what follows the quote. -/
def readUnits? : List Char → Option (List Nat × List Char)
  | [] => none
  | '"' :: rest => some ([], rest)
  | '\\' :: 'u' :: a :: b :: c :: d :: rest => do
    let unit ← Text.Hex.number? [a, b, c, d]
    let (units, after) ← readUnits? rest
    return (unit :: units, after)
  | '\\' :: e :: rest => do
    let unit ← escapedUnit? e
    let (units, after) ← readUnits? rest
    return (unit :: units, after)
  | c :: rest =>
    if c < ' ' then none
    else do
      let (units, after) ← readUnits? rest
      return (Text.charUnits c ++ units, after)

def readString? (cs : List Char) : Option (τ × List Char) :=
  (readUnits? cs).map fun (units, rest) => (Spelled.ofUnits units, rest)

/-! ## 3. Numbers -/

def splitDigits (cs : List Char) : List Char × List Char :=
  (cs.takeWhile Char.isDigit, cs.dropWhile Char.isDigit)

/-- The digits after the point, if there is a point. -/
def readFraction? : List Char → Option (List Char × List Char)
  | '.' :: rest =>
    match splitDigits rest with
    | ([], _) => none
    | split => some split
  | cs => some ([], cs)

def readExponent? : List Char → Option (Int × List Char)
  | [] => some (0, [])
  | c :: rest =>
    if c = 'e' ∨ c = 'E' then
      let (negative, cs) := Text.splitSign rest
      match splitDigits cs with
      | ([], _) => none
      | (ds, after) => some (Text.withSign negative (Text.digitsValue ds), after)
    else some (0, c :: rest)

/-- The number that a text starts with. Only a lone zero starts with a zero. -/
def readNumber? (cs : List Char) : Option (Number × List Char) := do
  let (negative, cs) := match cs with
    | '-' :: rest => (true, rest)
    | _ => (false, cs)
  let (whole, cs) := splitDigits cs
  if whole = [] ∨ (whole.head? = some '0' ∧ whole.length ≠ 1) then none
  else do
    let (decimals, cs) ← readFraction? cs
    let (exponent, cs) ← readExponent? cs
    let coefficient := Text.digitsValue (whole ++ decimals)
    return (.ofDecimal negative coefficient (exponent - decimals.length), cs)

/-! ## 4. Values -/

mutual

def readValue? : Nat → List Char → Option (JsonOf τ × List Char)
  | 0, _ => none
  | fuel + 1, cs =>
    match cs with
    | [] => none
    | c :: rest =>
      if c = '"' then (readString? rest).map fun (s, after) => (.string s, after)
      else if c = '[' then
        match skipGap rest with
        | ']' :: after => some (.array [], after)
        | items => (readItems? fuel items).map fun (items, after) => (.array items, after)
      else if c = '\x7b' then
        match skipGap rest with
        | '\x7d' :: after => some (.object [], after)
        | members =>
          (readMembers? fuel members).map fun (members, after) => (ofWritten members, after)
      else if c = 'n' then (afterWord? "null".toList cs).map (.null, ·)
      else if c = 't' then (afterWord? "true".toList cs).map (.bool true, ·)
      else if c = 'f' then (afterWord? "false".toList cs).map (.bool false, ·)
      else (readNumber? cs).map fun (n, after) => (.number n, after)
termination_by structural fuel => fuel

/-- One item or more, up to the bracket that closes their array. -/
def readItems? : Nat → List Char → Option (List (JsonOf τ) × List Char)
  | 0, _ => none
  | fuel + 1, cs => do
    let (item, cs) ← readValue? fuel cs
    match skipGap cs with
    | ']' :: after => return ([item], after)
    | ',' :: more => do
      let (items, after) ← readItems? fuel (skipGap more)
      return (item :: items, after)
    | _ => none
termination_by structural fuel => fuel

/-- One member or more, up to the brace that closes their object. -/
def readMembers? : Nat → List Char → Option (List (τ × JsonOf τ) × List Char)
  | 0, _ => none
  | fuel + 1, cs => do
    let nameText ← afterWord? ['"'] cs
    let (name, cs) ← readString? nameText
    let valueText ← afterWord? [':'] (skipGap cs)
    let (value, cs) ← readValue? fuel (skipGap valueText)
    match skipGap cs with
    | '\x7d' :: after => return ([(name, value)], after)
    | ',' :: more => do
      let (members, after) ← readMembers? fuel (skipGap more)
      return ((name, value) :: members, after)
    | _ => none
termination_by structural fuel => fuel

end

def parse? (text : String) : Option (JsonOf τ) :=
  let cs := text.toList
  match readValue? (2 * cs.length + 2) (skipGap cs) with
  | some (value, rest) => if skipGap rest = [] then some value else none
  | none => none

end BenchSettings.Json
