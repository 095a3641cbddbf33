/-
BenchSettings.Yaml.Token.Basic — the pieces that a text in this notation is
cut into.

A lexeme is a run of characters with the part that it plays: an indicator, a
text, a comment, the blanks between. Its part is known from where it stands, so
it is given by whoever cuts the text; only what is left on the line of a block
header is told by its first character (`LexemeKind.ofSource`).

This module also has the classes of characters on which the notation rests, and
the two ways to take a line off a text.
-/
import BenchSettings.Text.Units

namespace BenchSettings.Yaml

/-! ## 1. Characters -/

/-- A blank or a tab. -/
def isGap (c : Char) : Bool := c == ' ' || c == '\t'

/-- A blank, a tab or a part of a line end. -/
def isSpace (c : Char) : Bool := isGap c || c == '\n' || c == '\r'

/-- Whether nothing or a space comes next, which has to follow an indicator. -/
def spaceNext : List Char → Bool
  | [] => true
  | c :: _ => isSpace c

/-- A comma or bracket: what sets collections in brackets apart. -/
def isFlowMark (c : Char) : Bool :=
  c == ',' || c == '[' || c == ']' || c == '\x7b' || c == '\x7d'

def flowMarkNext : List Char → Bool
  | [] => false
  | c :: _ => isFlowMark c

def isAnchorChar (c : Char) : Bool := !isSpace c && !isFlowMark c

/-- How many 16-bit units characters take. -/
def unitCount (cs : List Char) : Nat := (cs.flatMap Text.charUnits).length

/-! ## 2. Lines -/

/-- Takes off the line end that a text starts with, if there is one. -/
def splitFeed : List Char → List Char × List Char
  | '\r' :: '\n' :: rest => (['\r', '\n'], rest)
  | '\n' :: rest => (['\n'], rest)
  | cs => ([], cs)

/-- Whether a line ends here, or the text does. -/
def lineDone : List Char → Bool
  | [] => true
  | '\r' :: '\n' :: _ => true
  | c :: _ => c == '\n'

/-- Splits a text before its first line end. -/
def splitLine : List Char → List Char × List Char
  | [] => ([], [])
  | '\r' :: '\n' :: rest => ([], '\r' :: '\n' :: rest)
  | c :: rest =>
    if c = '\n' then ([], c :: rest)
    else
      let (line, after) := splitLine rest
      (c :: line, after)

/-- Splits a text after its first line feed. -/
def splitFullLine : List Char → List Char × List Char
  | [] => ([], [])
  | c :: rest =>
    if c = '\n' then ([c], rest)
    else
      let (line, after) := splitFullLine rest
      (c :: line, after)

theorem splitFullLine_length (cs : List Char) : (splitFullLine cs).2.length ≤ cs.length - 1 := by
  induction cs with
  | nil => simp [splitFullLine]
  | cons c rest ih =>
    unfold splitFullLine
    split
    · simp
    · simp only [List.length_cons]
      omega

/-- Whether three like characters stand here on their own: the mark at the border of a document. -/
def isMarker (c : Char) (cs : List Char) : Bool := cs.take 3 == [c, c, c] && spaceNext (cs.drop 3)

/-! ## 3. Lexemes -/

/-- The part that a lexeme plays. -/
inductive LexemeKind where
  /-- The mark that some texts start with, which is no part of them. -/
  | byteOrderMark
  /-- Nothing at all, where the content of a document starts. -/
  | content
  /-- Nothing at all, where brackets are left open. -/
  | torn
  /-- A plain text, or the lines of a block. -/
  | text
  | single
  | double
  | reference
  | header
  | anchor
  | tag
  | dash
  | question
  | colon
  | openBrace
  | closeBrace
  | openBracket
  | closeBracket
  | comma
  /-- Blanks and tabs. -/
  | gap
  | comment
  | lineEnd
  | directive
  /-- Three dashes, where a document starts. -/
  | dashes
  /-- Three dots, where a document ends. -/
  | dots
  /-- What cannot stand where it stands. -/
  | junk
  deriving DecidableEq, Repr

namespace LexemeKind

/-- The indicator that a character can be outside of brackets. -/
def ofIndicator? (c : Char) : Option LexemeKind :=
  if c = '-' then some .dash
  else if c = '?' then some .question
  else if c = ':' then some .colon
  else none

def ofFlowMark (c : Char) : LexemeKind :=
  if c = '[' then .openBracket
  else if c = ']' then .closeBracket
  else if c = '\x7b' then .openBrace
  else if c = '\x7d' then .closeBrace
  else .comma

/-- The kind of what follows the header of a block on its line. -/
def ofSource (source : List Char) : LexemeKind :=
  match source with
  | [] => .lineEnd
  | [c] =>
    if isFlowMark c then ofFlowMark c
    else (ofIndicator? c).getD (ofStart c)
  | c :: _ =>
    if source = ['-', '-', '-'] then .dashes
    else if source = ['.', '.', '.'] then .dots
    else ofStart c
where
  /-- The kind that a first character tells. -/
  ofStart (c : Char) : LexemeKind :=
    if c = '#' then .comment
    else if c = '%' then .directive
    else if c = '*' then .reference
    else if c = '&' then .anchor
    else if c = '!' then .tag
    else if c = '\x27' then .single
    else if c = '"' then .double
    else if c = '|' ∨ c = '>' then .header
    else .junk

end LexemeKind

/-- Characters with the part that they play. -/
structure Lexeme where
  kind : LexemeKind
  source : List Char
  deriving DecidableEq, Repr

/-- A lexeme of some characters, if there are any. -/
def lexemeOf (kind : LexemeKind) (source : List Char) : List Lexeme :=
  if source.isEmpty then [] else [⟨kind, source⟩]

end BenchSettings.Yaml
