/-
BenchSettings.Yaml.Node.Properties — what stands before and after a node.

Before a node there can be one indicator, an anchor and a tag, comments and
empty lines, in some order; after it, blanks and a comment. `propertiesOf?` and
`remarksOf?` read these tokens, and give nothing if any of them may not stand
where it does: a tab that takes part in the indentation, a comment without a
blank before it, a second anchor. Tags are read, but mean nothing; what that
leaves out is said in `Yaml.Document`.
-/
import BenchSettings.Yaml.Node.Basic
import BenchSettings.Yaml.Outline.Basic

namespace BenchSettings.Yaml

/-! ## 1. What comes next -/

/-- What comes after some tokens. -/
inductive Next where
  | nothing
  | token (t : Token)
  | outline (o : Outline)

namespace Next

/-- The outline if there is one, or else the first of the tokens behind it. -/
def ofParts (o : Option Outline) (tokens : Option (List Token)) : Next :=
  match o, tokens with
  | some o, _ => .outline o
  | none, some (t :: _) => .token t
  | none, _ => .nothing

/-- Whether this may stand right behind an anchor or a tag. -/
def mayTouch : Next → Bool
  | .nothing => true
  | .token t => t.kind == .gap || t.kind == .lineEnd || t.kind == .comma
  | .outline (.text t _) => t.kind == .text && t.source.isEmpty
  | .outline _ => false

def isBlockCollection : Next → Bool
  | .outline o => o.isBlockCollection
  | _ => false

def isFlow : Next → Bool
  | .outline o => o.isFlow
  | _ => false

end Next

/-! ## 2. Before a node -/

/-- What the tokens before a node say. -/
structure Properties where
  /-- Where the anchor or the tag starts, or else where the tokens end. -/
  start : Nat
  /-- Where the tokens end. -/
  stop : Nat
  /-- The indicator. -/
  mark : Option Token
  /-- Whether a comma is among the tokens. -/
  comma : Bool
  anchor : Option Token
  tag : Option Token
  /-- Where the last line after an anchor or a tag ends. -/
  breakAfter : Option Nat
  /-- Whether there is a line end. -/
  broken : Bool
  /-- Whether there is an empty line. -/
  spaced : Bool
  comment : List Char

/-- What is known after some of the tokens. -/
structure Progress where
  found : Properties
  atLineStart : Bool
  afterSpace : Bool
  /-- The line ends after the last comment. -/
  feeds : List Char
  /-- Whether an anchor or a tag came last, which a space has to follow. -/
  due : Bool
  /-- A tab that came last. -/
  tab : Option Token

/-- The text of a comment. One without any characters counts as a blank. -/
def commentText (t : Token) : List Char :=
  match t.source.drop 1 with
  | [] => [' ']
  | text => text

namespace Progress

def takeComment? (p : Progress) (t : Token) : Option Progress :=
  if p.afterSpace then
    let comment := p.found.comment
    let comment :=
      if comment.isEmpty then commentText t else comment ++ p.feeds ++ commentText t
    some { p with found := { p.found with comment := comment }, feeds := [], atLineStart := false }
  else none

/-- A line end. An empty line belongs to the comment that it follows. -/
def takeLineEnd (mark : LexemeKind) (p : Progress) (t : Token) : Progress :=
  let f := p.found
  let empty := p.atLineStart
  let inComment := !f.comment.isEmpty
  let counts := f.mark.isNone || mark != .dash
  { p with
    found := { f with
      broken := true
      breakAfter := if f.anchor.isSome || f.tag.isSome then some t.offset else f.breakAfter
      comment := if empty && inComment then f.comment ++ t.source else f.comment
      spaced := f.spaced || (empty && !inComment && counts) }
    feeds := if empty then p.feeds else p.feeds ++ t.source
    afterSpace := true
    atLineStart := true }

/-- The next token, where `mark` is the indicator that may stand here, and `tabs` tells whether tabs
matter. -/
def take? (flow : Bool) (mark : LexemeKind) (tabs : Bool) (p : Progress) (t : Token) :
    Option Progress :=
  if p.due && !(Next.token t).mayTouch then none
  else if p.tab.isSome && p.atLineStart && t.kind != .comment && t.kind != .lineEnd then none
  else
    let p := { p with due := false, tab := none }
    let f := p.found
    let bare := f.anchor.isNone && f.tag.isNone
    let start := if bare then t.offset else f.start
    match t.kind with
    | .gap =>
      let tab := if tabs && t.source.contains '\t' then some t else none
      some { p with afterSpace := true, tab := tab }
    | .comment => p.takeComment? t
    | .lineEnd => some (p.takeLineEnd mark t)
    | .anchor =>
      if f.anchor.isSome then none
      else
        some { p with
          found := { f with anchor := some t, start := start }, atLineStart := false,
          afterSpace := false, due := true }
    | .tag =>
      if f.tag.isSome then none
      else
        some { p with
          found := { f with tag := some t, start := start }, atLineStart := false,
          afterSpace := false, due := true }
    | kind =>
      if kind = mark then
        if bare && f.mark.isNone then
          some { p with
            found := { f with mark := some t }, atLineStart := mark == .dash || mark == .question,
            afterSpace := false }
        else none
      else if kind = .comma ∧ flow = true ∧ f.comma = false then
        some { p with
          found := { f with comma := true }, atLineStart := false, afterSpace := false }
      else none

end Progress

/-- Where tokens end that start at some place. -/
def stopOf (offset : Nat) (tokens : List Token) : Nat :=
  (tokens.getLast?.map Token.stop).getD offset

/-- Reads the tokens before what comes next. `flow` tells whether brackets are around, and `indent`
is the indentation of what holds the node. -/
def propertiesOf? (flow : Bool) (mark : LexemeKind) (next : Next) (offset indent : Nat)
    (atLineStart : Bool) (tokens : List Token) : Option Properties := do
  let stop := stopOf offset tokens
  let plain : Properties := ⟨stop, stop, none, false, none, none, none, false, false, []⟩
  let tabs := !flow && !(mark == .dashes && next.isFlow)
  let first : Progress := ⟨plain, atLineStart, atLineStart, [], false, none⟩
  let last ← tokens.foldlM (Progress.take? flow mark tabs) first
  let tabbed := last.tab.any fun tab =>
    (last.atLineStart && decide (tab.indent ≤ indent)) || next.isBlockCollection
  if (last.due && !next.mayTouch) || tabbed then none else some last.found

namespace Properties

def isBare (p : Properties) : Bool := p.anchor.isNone && p.tag.isNone

/-- Whether an anchor or a tag is the last thing on the line where a list starts. -/
def touchesLine (p : Properties) : Bool :=
  let places := p.anchor.toList ++ p.tag.toList
  places.any fun t => p.breakAfter.all fun place => decide (place < t.offset)

/-- The anchor. One without a name is refused. -/
def anchor? (p : Properties) : Option (Option Anchor) :=
  match p.anchor with
  | none => some none
  | some t => if t.source.length ≤ 1 then none else some (some ⟨t.source.drop 1, t.offset⟩)

/-- What is around a node with these properties, apart from comments after it. -/
def margin? (p : Properties) : Option Margin :=
  p.anchor?.map fun anchor => ⟨anchor, p.spaced, p.comment, []⟩

end Properties

/-! ## 3. After a node -/

/-- Reads the tokens after what ends at some place: a comment, and where they end in turn. -/
def remarksOf? (strict : Bool) (offset : Nat) (tokens : List Token) : Option (List Char × Nat) :=
  go false [] [] offset tokens
where
  /-- Goes on after a comment and line ends. -/
  go (afterSpace : Bool) (comment feeds : List Char) (offset : Nat) :
      List Token → Option (List Char × Nat)
    | [] => some (comment, offset)
    | t :: rest =>
      let next := offset + t.width
      match t.kind with
      | .gap => go true comment feeds next rest
      | .lineEnd => go true comment (if comment.isEmpty then [] else feeds ++ t.source) next rest
      | .comment =>
        if strict && !afterSpace then none
        else if comment.isEmpty then go afterSpace (commentText t) [] next rest
        else go afterSpace (comment ++ feeds ++ commentText t) [] next rest
      | _ => none

/-- Where a node without any text stands that comes after tokens: behind the last of them with any
content, and behind the blanks that follow it. -/
def emptyPlace (offset : Nat) (tokens : List Token) : Nat :=
  let trivia := (tokens.reverse.takeWhile Token.isTrivia).reverse
  let gaps := trivia.takeWhile (·.kind == .gap)
  let place := offset - totalWidth trivia
  if trivia.length < tokens.length then place + totalWidth gaps else place

end BenchSettings.Yaml
