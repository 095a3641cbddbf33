/-
BenchSettings.Yaml.Outline.Basic — what stands where in a text.

An outline is the shape of a document before it means anything: texts, blocks
and collections with the tokens around them. A token is a lexeme with its
place. The entries of a collection have tokens before the key, and tokens
between the key and the value; what comes after a text or a bracket is kept
with it. Indicators, comments, anchors and line ends are all still there, since
whether they may stand where they do is told later.
-/
import BenchSettings.Yaml.Token.Basic

namespace BenchSettings.Yaml

/-! ## 1. Tokens -/

/-- A lexeme at its place: after so many units of the text, and indented so far. -/
structure Token where
  kind : LexemeKind
  source : List Char
  offset : Nat
  indent : Nat
  deriving DecidableEq, Repr

namespace Token

def width (t : Token) : Nat := unitCount t.source

def stop (t : Token) : Nat := t.offset + t.width

/-- Whether a token has no content: blanks, a comment or a line end. -/
def isTrivia (t : Token) : Bool := t.kind == .gap || t.kind == .comment || t.kind == .lineEnd

end Token

def totalWidth : List Token → Nat
  | [] => 0
  | t :: rest => t.width + totalWidth rest

def hasKind (kind : LexemeKind) (tokens : List Token) : Bool := tokens.any (·.kind == kind)

/-! ## 2. Outlines -/

/-- One entry of a collection, or an item of a list, which has no key. -/
structure Entry (α : Type) where
  /-- What comes before the key, or before an item. -/
  start : List Token
  /-- Whether a question mark announces the key. -/
  announced : Bool
  key : Option α
  /-- What comes after the key, once there is one or a colon. -/
  separator : Option (List Token)
  value : Option α
  deriving Inhabited

/-- An entry of which only the start has come. -/
def Entry.opened {α : Type} (start : List Token) : Entry α := ⟨start, false, none, none, none⟩

/-- The shape of a node. Entries are listed with the last first as long as more can come. -/
inductive Outline where
  /-- A text or an alias, with what follows it up to the end of the line. -/
  | text (token : Token) (after : Option (List Token))
  /-- A block below its header. -/
  | block (header : Token) (indent : Nat) (remarks : List Token) (source : List Char)
  | map (offset indent : Nat) (entries : List (Entry Outline))
  | list (offset indent : Nat) (items : List (Entry Outline))
  /-- A collection in brackets, with its closing bracket and what follows that. -/
  | flow (opening : Token) (indent : Nat) (entries : List (Entry Outline)) (closing : List Token)
  /-- What cannot be a node. -/
  | wrong
  deriving Inhabited

namespace Outline

def isBlockCollection : Outline → Bool
  | .map .. | .list .. => true
  | _ => false

def isMap : Outline → Bool
  | .map .. => true
  | _ => false

def isList : Outline → Bool
  | .list .. => true
  | _ => false

def isFlow : Outline → Bool
  | .flow .. => true
  | _ => false

/-- Whether this can stand inside brackets. -/
def isInline : Outline → Bool
  | .text .. | .flow .. => true
  | _ => false

def isBlock : Outline → Bool
  | .block .. => true
  | _ => false

def indent? : Outline → Option Nat
  | .text token _ => some token.indent
  | .block _ indent _ _ | .map _ indent _ | .list _ indent _ | .flow _ indent _ _ => some indent
  | .wrong => none

/-- What follows a text or a bracket. -/
def after? : Outline → Option (List Token)
  | .text _ after => after
  | .flow _ _ _ closing => some closing
  | _ => none

def addAfter (more : List Token) : Outline → Outline
  | .text token after => .text token (some (after.getD [] ++ more))
  | .flow opening indent entries closing => .flow opening indent entries (closing ++ more)
  | o => o

end Outline

/-! ## 3. Documents -/

structure DocumentOutline where
  offset : Nat
  start : List Token
  value : Option Outline
  after : Option (List Token)

/-- What a whole text consists of. -/
inductive Section where
  | directive (source : List Char)
  | document (outline : DocumentOutline)
  /-- The dots after a document, with what follows them on their line. -/
  | dots (after : List Token)
  /-- What cannot stand where it stands. -/
  | wrong

end BenchSettings.Yaml
