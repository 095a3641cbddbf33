/-
BenchSettings.Yaml.Node.Text — what the texts in a document say.

A plain or quoted text may go on over several lines. The gaps around a line end
are dropped, and the line end itself becomes a blank, or as many line feeds as
there are empty lines. Single quotes know no escape but the doubled quote;
double quotes have escapes with a letter, with hex digits, and for the line end.
What an escape makes is never dropped.

The lines of a block stand as they are after `|` and are folded after `>`,
except where they are indented further. The header may give the indentation as
a digit, and says with `-` or `+` whether the line feeds at the end are dropped
or all kept; otherwise there is one.
-/
import BenchSettings.Text.Hex
import BenchSettings.Yaml.Node.Basic
import BenchSettings.Yaml.Token.Basic

namespace BenchSettings.Yaml

open Text (Loose)

/-! ## 1. Folding lines -/

/-- Characters without the gaps that they end with. -/
def dropEndGaps (cs : List Char) : List Char := (cs.reverse.dropWhile isGap).reverse

/-- Characters without a carriage return at their end. -/
def dropReturn (cs : List Char) : List Char := if cs.getLast? = some '\r' then cs.dropLast else cs

/-- Folds the lines after the first. `between` is what comes before the next of them. -/
def foldRest (between : Char) : List (List Char) → List Char
  | [] => []
  | [last] => between :: last.dropWhile isGap
  | l :: rest =>
    let body := dropEndGaps (dropReturn (l.dropWhile isGap))
    if !body.isEmpty then between :: (body ++ foldRest ' ' rest)
    else if between = '\n' then '\n' :: foldRest '\n' rest
    else foldRest '\n' rest

def foldLines (cs : List Char) : List Char :=
  match cs.splitOn '\n' with
  | [] => []
  | [only] => only
  | first :: rest => dropEndGaps (dropReturn first) ++ foldRest ' ' rest

/-! ## 2. Plain texts and single quotes -/

/-- A character that no plain text starts with. Others that cannot start one start something
else. -/
def isReserved (c : Char) : Bool :=
  c == '\t' || c == ',' || c == '%' || c == '|' || c == '>' || c == '@' || c == '\x60'

def plainContent? (source : List Char) : Option (List Char) :=
  if source.head?.any isReserved then none else some (foldLines source)

/-- Writes a single quote for every two. -/
def undouble : List Char → List Char
  | '\x27' :: '\x27' :: rest => '\x27' :: undouble rest
  | c :: rest => c :: undouble rest
  | [] => []

/-- The characters between a quote and its other one, which has to be there. -/
def between? (quote : Char) (source : List Char) : Option (List Char) :=
  if source.length ≤ 1 ∨ source.getLast? ≠ some quote then none else some (source.drop 1).dropLast

def singleContent? (source : List Char) : Option (List Char) :=
  (between? '\x27' source).map fun inside => undouble (foldLines inside)

/-! ## 3. Double quotes -/

def escapedUnit? : Char → Option Nat
  | '0' => some 0x00
  | 'a' => some 0x07
  | 'b' => some 0x08
  | 'e' => some 0x1b
  | 'f' => some 0x0c
  | 'n' => some 0x0a
  | 'r' => some 0x0d
  | 't' => some 0x09
  | 'v' => some 0x0b
  | 'N' => some 0x85
  | '_' => some 0xa0
  | 'L' => some 0x2028
  | 'P' => some 0x2029
  | ' ' => some 0x20
  | '"' => some 0x22
  | '/' => some 0x2f
  | '\\' => some 0x5c
  | '\t' => some 0x09
  | _ => none

/-- The units of an escape with hex digits: one unit, or the pair of a character beyond. -/
def hexUnits? (ds : List Char) : Option (List Nat) := do
  let n ← Text.Hex.number? ds
  if n < 0x10000 then some [n]
  else if n < 0x110000 then some (Text.charUnits (Char.ofNat n))
  else none

/-- Takes off the line ends and gaps that a text starts with, and counts its line feeds. -/
def splitFeeds : List Char → Nat × List Char
  | '\r' :: '\n' :: rest => let (n, rest) := splitFeeds rest; (n + 1, rest)
  | '\n' :: rest => let (n, rest) := splitFeeds rest; (n + 1, rest)
  | c :: rest => if isGap c then splitFeeds rest else (0, c :: rest)
  | [] => (0, [])

theorem splitFeeds_length (cs : List Char) : (splitFeeds cs).2.length ≤ cs.length := by
  fun_induction splitFeeds cs <;> simp_all <;> omega

/-- What some line ends become, of which the first is not counted. -/
def feedUnits (more : Nat) : List Nat := if more = 0 then [0x20] else List.replicate more 0x0a

/-- The units that a text in double quotes makes, up to its last quote, which an escape may take. -/
def doubleUnits? : List Char → Option (List Nat)
  | [] => some []
  | [_] => some []
  | '\r' :: '\n' :: rest => doubleUnits? ('\n' :: rest)
  | '\n' :: rest => do
    let units ← doubleUnits? (splitFeeds rest).2
    return feedUnits (splitFeeds rest).1 ++ units
  | '\\' :: '\r' :: '\n' :: rest => doubleUnits? (rest.dropWhile isGap)
  | '\\' :: '\n' :: rest => doubleUnits? (rest.dropWhile isGap)
  | '\\' :: 'x' :: a :: b :: rest => do
    return (← hexUnits? [a, b]) ++ (← doubleUnits? rest)
  | '\\' :: 'u' :: a :: b :: c :: d :: rest => do
    return (← hexUnits? [a, b, c, d]) ++ (← doubleUnits? rest)
  | '\\' :: 'U' :: a :: b :: c :: d :: e :: f :: g :: h :: rest => do
    return (← hexUnits? [a, b, c, d, e, f, g, h]) ++ (← doubleUnits? rest)
  | '\\' :: c :: rest => do
    return (← escapedUnit? c) :: (← doubleUnits? rest)
  | c :: rest =>
    if isGap c then do
      let units ← doubleUnits? (rest.dropWhile isGap)
      let after := rest.dropWhile isGap
      if after.head? = some '\n' ∨ after.take 2 = ['\r', '\n'] then return units
      else return (c :: rest.takeWhile isGap).map Char.toNat ++ units
    else do return Text.charUnits c ++ (← doubleUnits? rest)
termination_by cs => cs.length
decreasing_by
  all_goals try simp only [List.length_cons]
  all_goals try omega
  · have := splitFeeds_length rest
    omega
  all_goals
    have := (List.dropWhile_suffix (l := rest) isGap).length_le
    omega

def doubleContent? (source : List Char) : Option Loose :=
  (between? '"' source).bind fun _ => (doubleUnits? (source.drop 1)).map Loose.ofUnits

/-! ## 4. Blocks -/

/-- What happens to the line feeds at the end of a block. -/
inductive Chomp where
  | clip
  | strip
  | keep
  deriving DecidableEq, Repr

structure BlockHeader where
  style : Style
  /-- The indentation beyond that of the parent, if it is given. -/
  digit : Option Nat
  chomp : Chomp
  deriving DecidableEq, Repr

/-- Reads the signs of a header, each of them at most once. -/
def readSigns? (digit : Option Nat) (chomp : Option Chomp) :
    List Char → Option (Option Nat × Option Chomp)
  | [] => some (digit, chomp)
  | c :: rest =>
    if c = '-' ∧ chomp = none then readSigns? digit (some .strip) rest
    else if c = '+' ∧ chomp = none then readSigns? digit (some .keep) rest
    else if '1' ≤ c ∧ c ≤ '9' ∧ digit = none then readSigns? (some (c.toNat - 48)) chomp rest
    else none

def BlockHeader.read? (source : List Char) : Option BlockHeader := do
  let (digit, chomp) ← readSigns? none none (source.drop 1)
  return ⟨if source.head? = some '>' then .folded else .literal, digit, chomp.getD .clip⟩

/-- A line of a block: so many blanks, and what follows them. -/
structure BlockLine where
  indent : Nat
  body : List Char
  deriving DecidableEq, Repr

namespace BlockLine

def ofChars (cs : List Char) : BlockLine :=
  ⟨(cs.takeWhile (· == ' ')).length, cs.dropWhile (· == ' ')⟩

def isBlank (l : BlockLine) : Bool := (dropReturn l.body).isEmpty

/-- The blanks beyond an indentation. -/
def extra (indent : Nat) (l : BlockLine) : List Char := List.replicate (l.indent - indent) ' '

/-- A line without the indentation of its block. -/
def within (indent : Nat) (l : BlockLine) : List Char := l.extra indent ++ dropReturn l.body

end BlockLine

/-- The lines of the text of a block. A text without characters has none. -/
def blockLines (source : List Char) : List BlockLine :=
  if source.isEmpty then [] else (source.splitOn '\n').map BlockLine.ofChars

/-- What stands between two lines of a folded block. -/
inductive Gap where
  | nothing
  | blank
  | feed
  | feeds
  deriving DecidableEq, Repr

def Gap.chars : Gap → List Char
  | .nothing => []
  | .blank => [' ']
  | .feed => ['\n']
  | .feeds => ['\n', '\n']

/-- Folds the lines of a block: lines next to each other are joined by a blank, empty lines count as
line feeds, and around lines that are indented further every line feed stays. -/
def foldBlock (indent : Nat) (gap : Gap) (deep : Bool) : List BlockLine → List Char
  | [] => []
  | l :: rest =>
    let line := l.within indent
    if indent < l.indent || l.body.head? = some '\t' then
      let gap := match gap, deep with
        | .blank, _ => Gap.feed
        | .feed, false => .feeds
        | g, _ => g
      gap.chars ++ line ++ foldBlock indent .feed true rest
    else if line.isEmpty then
      match gap with
      | .feed => '\n' :: foldBlock indent .feed deep rest
      | _ => foldBlock indent .feed deep rest
    else gap.chars ++ line ++ foldBlock indent .blank false rest

/-- The lines of a block with a line feed between each two. -/
def joinBlock (indent : Nat) (lines : List BlockLine) : List Char :=
  List.intercalate ['\n'] (lines.map (·.within indent))

/-- The indentation of a block whose lines come after some blank ones: that of its first line, which
has to be enough for the blank ones too, unless it is given. -/
def blockIndent? (least : Nat) (digit : Option Nat) (leading : List BlockLine)
    (first : BlockLine) : Option Nat :=
  let deepest := (leading.map (·.indent)).foldl max least
  match digit with
  | none => if deepest ≤ first.indent then some first.indent else none
  | some n => if least + n ≤ first.indent then some (least + n) else none

/-- What the lines of a block say. `parent` is the indentation around it, and only what is not
inside of anything (`root`) need not be indented. -/
def blockContent? (root : Bool) (parent : Nat) (header : BlockHeader) (lines : List BlockLine) :
    Option (List Char) :=
  let leading := lines.takeWhile BlockLine.isBlank
  match lines.drop leading.length with
  | [] =>
    if header.chomp = .keep ∧ lines ≠ [] then
      some (List.replicate (max 1 (lines.length - 1)) '\n')
    else some []
  | first :: more => do
    let indent ← blockIndent? parent header.digit leading first
    let isRest := fun (l : BlockLine) => l.isBlank && decide (l.indent ≤ indent)
    let ends := (more.reverse.takeWhile isRest).reverse
    let inside := first :: more.take (more.length - ends.length)
    if (indent = 0 ∧ root = false) ∨
        inside.any (fun l => !l.isBlank && decide (l.indent < indent)) = true then none
    else
      let above := leading.flatMap fun l => l.extra indent ++ ['\n']
      let text := above ++
        if header.style = .folded then foldBlock indent .nothing false inside
        else joinBlock indent inside
      match header.chomp with
      | .strip => return text
      | .clip => return text ++ ['\n']
      | .keep =>
        let text := text ++ List.replicate ends.length '\n'
        return if text.getLast? = some '\n' then text else text ++ ['\n']

end BenchSettings.Yaml
