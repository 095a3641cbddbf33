/-
BenchSettings.Yaml.Token.Extent — how far the texts reach.

A plain text reaches to a comment, to a colon that a space follows, and inside
brackets also to a comma or a bracket. A quoted text reaches to its quote. Both
go on in the next line if that is indented enough (`goesOn`), and so do the
lines of a block, whose indentation is that of the first of them unless a
header says otherwise.

Nothing is checked here. A quote that is missing, or a line that is not indented
enough, leaves a text that ends where it has to and is refused later on.
-/
import BenchSettings.Yaml.Token.Basic

namespace BenchSettings.Yaml

/-! ## 1. From line to line -/

def blankCount (cs : List Char) : Nat := (cs.takeWhile (· == ' ')).length

def skipBlanks (cs : List Char) : List Char := cs.dropWhile (· == ' ')

def feedNext (cs : List Char) : Bool := !cs.isEmpty && lineDone cs

/-- Whether a text that needs `least` blanks goes on in the line that starts here. Where none are
needed it goes on everywhere but at the border of the document. -/
def goesOn (least : Nat) (cs : List Char) : Bool :=
  if 0 < least then feedNext (skipBlanks cs) || decide (least ≤ blankCount cs)
  else !(isMarker '-' cs || isMarker '.' cs)

/-! ## 2. Plain texts -/

/-- Whether a plain text ends before what comes next, after a space. -/
def endsPlain (flow : Bool) : List Char → Bool
  | [] => false
  | c :: _ => c == '#' || (flow && isFlowMark c)

/-- Whether a colon that this follows separates a key from its value. -/
def colonEnds (flow : Bool) (cs : List Char) : Bool := spaceNext cs || (flow && flowMarkNext cs)

/-- How many characters the plain text takes of which `seen` are behind, and `taken` of those are
certain. Spaces are part of it only if more follows. -/
def plainLength (flow : Bool) (least seen taken : Nat) : List Char → Nat
  | [] => taken
  | '\r' :: '\n' :: rest =>
    if endsPlain flow rest || !goesOn least rest then taken
    else plainLength flow least (seen + 2) taken rest
  | c :: rest =>
    if c == ':' then
      if colonEnds flow rest then taken else plainLength flow least (seen + 1) (seen + 1) rest
    else if isSpace c then
      let taken := if c == '\r' then seen + 1 else taken
      if endsPlain flow rest || (c == '\n' && !goesOn least rest) then taken
      else plainLength flow least (seen + 1) taken rest
    else if flow && isFlowMark c then taken
    else plainLength flow least (seen + 1) (seen + 1) rest

/-! ## 3. Quoted texts -/

/-- How many characters there are up to the closing quote, with it. Two single quotes are none. -/
def singleLength? (seen : Nat) : List Char → Option Nat
  | [] => none
  | '\x27' :: '\x27' :: rest => singleLength? (seen + 2) rest
  | c :: rest => if c = '\x27' then some (seen + 1) else singleLength? (seen + 1) rest

/-- How many characters there are up to the closing quote, with it. No quote after a backslash
closes. -/
def doubleLength? (seen : Nat) : List Char → Option Nat
  | [] => none
  | '\\' :: _ :: rest => doubleLength? (seen + 2) rest
  | c :: rest => if c = '"' then some (seen + 1) else doubleLength? (seen + 1) rest

/-- How many characters come before the first line end, among so many characters, after which a text
does not go on. -/
def breach? (least seen : Nat) : Nat → List Char → Option Nat
  | count + 2, '\r' :: '\n' :: rest =>
    if goesOn least rest then breach? least (seen + 2) count rest else some seen
  | count + 1, c :: rest =>
    if c = '\n' ∧ goesOn least rest = false then some seen
    else breach? least (seen + 1) count rest
  | _, _ => none

/-- How many characters the quoted text takes that starts after its opening quote. Without a closing
quote it takes all. -/
def quotedLength (quote : Char) (least : Nat) (cs : List Char) : Nat :=
  match if quote = '"' then doubleLength? 0 cs else singleLength? 0 cs with
  | none => cs.length
  | some n => (breach? least 0 (n - 1) cs).getD n

/-! ## 4. Blocks -/

def takeLines (accept : List Char → Bool) (cs : List Char) : List (List Char) × List Char :=
  if _some : cs ≠ [] ∧ accept cs = true then
    let (lines, rest) := takeLines accept (splitFullLine cs).2
    ((splitFullLine cs).1 :: lines, rest)
  else ([], cs)
termination_by cs.length
decreasing_by
  have shorter := splitFullLine_length cs
  have := List.length_pos_iff.2 _some.1
  omega

/-- Whether a line is left to what follows the block that it ends: it has at most `indent` blanks
and nothing else. -/
def isLeftOver (indent : Nat) (line : List Char) : Bool :=
  let body := line.filter (· != '\n')
  let body := if body.getLast? = some '\r' then body.dropLast else body
  body.all (· == ' ') && decide (body.length ≤ indent)

/-- Splits lines, of which the first stays in any case, before the ones at the end that are left
over. -/
def splitLeftOver (indent : Nat) : List (List Char) → List (List Char) × List (List Char)
  | [] => ([], [])
  | first :: more =>
    let ends := more.reverse.takeWhile (isLeftOver indent)
    (first :: more.take (more.length - ends.length), ends.reverse)

/-- What the header of a block says about where it ends. -/
structure BlockExtent where
  /-- The indentation beyond that of the parent, if it is given. -/
  digit : Option Nat
  /-- Whether blank lines at the end belong to the block. -/
  keep : Bool

def BlockExtent.ofSigns (cs : List Char) : BlockExtent :=
  let signs := cs.takeWhile fun c => c == '+' || c == '-' || (decide ('1' ≤ c) && decide (c ≤ '9'))
  ⟨((signs.filter Char.isDigit).getLast?).map fun c => c.toNat - 48, signs.contains '+'⟩

/-- The lines of the block that starts here, below its header, with the indentation that what goes
on needs from here on, and what follows. A tab that comes after blanks where the block ends is kept
in it, with all the space around, so that it is refused with the block. -/
def splitBlock (extent : BlockExtent) (least : Nat) (cs : List Char) :
    List Char × Nat × List Char :=
  let (leading, body) := takeLines (fun cs => feedNext (skipBlanks cs)) cs
  let indent := blankCount body
  let inside := match extent.digit with
    | none => indent
    | some n => n - 1 + (if least = 0 then 1 else least)
  let (content, rest) := if least ≤ indent then takeLines (goesOn inside) body else ([], body)
  let least := if least ≤ indent then inside else least
  let lines := leading ++ content
  if (skipBlanks rest).head? = some '\t' then
    (lines.flatten ++ rest.takeWhile isSpace, least, rest.dropWhile isSpace)
  else if extent.keep then (lines.flatten, least, rest)
  else
    let (kept, leftOver) := splitLeftOver indent lines
    (kept.flatten, least, leftOver.flatten ++ rest)

end BenchSettings.Yaml
