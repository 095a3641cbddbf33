/-
BenchSettings.Yaml.Node.Basic — what a document consists of.

A node is a text, a list, a map, or an alias for another node. Every scalar is
its text; there are no other types of scalar. What is written around a node, its
anchor and the comments, is kept as its margin: an alias names an anchor, and a
collection that is a key is listed under its spelling, comments and all.
-/
import BenchSettings.Text.Loose

namespace BenchSettings.Yaml

open Text (Loose)

/-- How a text is written. -/
inductive Style where
  | plain
  | single
  | double
  | literal
  | folded
  deriving DecidableEq, Repr

namespace Style

def isBlock : Style → Bool
  | .literal | .folded => true
  | _ => false

end Style

/-- The name of a node, with the place where it stands. -/
structure Anchor where
  name : List Char
  place : Nat
  deriving DecidableEq, Repr

/-- What is written around a node. A comment without characters is none. -/
structure Margin where
  anchor : Option Anchor
  /-- Whether an empty line comes before. -/
  spaced : Bool
  /-- The comment on the lines before. -/
  before : List Char
  /-- The comment after. -/
  after : List Char
  deriving DecidableEq, Repr, Inhabited

namespace Margin

def empty : Margin := ⟨none, false, [], []⟩

end Margin

/-- Two comments, one below the other. -/
def joinComments (above below : List Char) : List Char :=
  if above.isEmpty then below
  else if below.isEmpty then above
  else above ++ '\n' :: below

inductive Node where
  | text (margin : Margin) (style : Style) (content : Loose)
  | list (margin : Margin) (items : List Node)
  /-- A map. A key without a colon has no value. -/
  | map (margin : Margin) (entries : List (Node × Option Node))
  /-- An alias for the node with an anchor, with the place where it stands. -/
  | reference (margin : Margin) (name : List Char) (place : Nat)
  deriving Inhabited

namespace Node

def margin : Node → Margin
  | .text m _ _ | .list m _ | .map m _ | .reference m _ _ => m

def withMargin (m : Margin) : Node → Node
  | .text _ style content => .text m style content
  | .list _ items => .list m items
  | .map _ entries => .map m entries
  | .reference _ name place => .reference m name place

def addComment (comment : List Char) (n : Node) : Node :=
  n.withMargin { n.margin with after := joinComments n.margin.after comment }

/-- The content of a node that is a text. -/
def content? : Node → Option Loose
  | .text _ _ content => some content
  | _ => none

def isCollection : Node → Bool
  | .list .. | .map .. => true
  | _ => false

/-- Whether one of the keys is the same text as another key. -/
def repeatsKey (entries : List (Node × Option Node)) (key : Node) : Bool :=
  key.content?.any fun content => entries.any fun e => e.1.content? == some content

end Node

end BenchSettings.Yaml
