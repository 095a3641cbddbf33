/-
BenchSettings.Yaml.Node.OfOutline — nodes from outlines.

An outline says what stands where; here is told whether it may (`nodeOf?`). The
keys of a map by indentation stand in one column, and a key that no question
mark announces ends on its line and has its colon near; a list in brackets may
hold maps of one entry; no two keys of a map are the same text. What is missing
is an empty text, except the value of a key without a colon.

Each reader gives the node with the place where it ends, since the next one is
measured from there.
-/
import BenchSettings.Yaml.Node.Properties
import BenchSettings.Yaml.Node.Text

namespace BenchSettings.Yaml

open Text (Loose)

/-! ## 1. Texts -/

def contentOf? (t : Token) : Option (Style × Loose) :=
  let loose := fun (cs : List Char) => (⟨cs.map .char⟩ : Loose)
  match t.kind with
  | .text => (plainContent? t.source).map fun cs => (.plain, loose cs)
  | .single => (singleContent? t.source).map fun cs => (.single, loose cs)
  | .double => (doubleContent? t.source).map fun content => (.double, content)
  | _ => none

/-- The node of a text or an alias. An alias cannot have an anchor or a tag. -/
def textNode? (p : Properties) (t : Token) (after : List Token) : Option (Node × Nat) := do
  let m ← p.margin?
  let (comment, stop) ← remarksOf? true t.stop after
  let m := { m with after := comment }
  if t.kind = .reference then
    if t.source.length ≤ 1 || !p.isBare then none
    else return (.reference m (t.source.drop 1) t.offset, stop)
  else
    let (style, content) ← contentOf? t
    let m :=
      if t.source.isEmpty && !p.comment.isEmpty then { m with before := [], after := p.comment }
      else m
    return (.text m style content, stop)

/-- Reads what stands on the line of a header, and gives the comment there. -/
def headerComment? (afterSpace : Bool) (comment : List Char) : List Token → Option (List Char)
  | [] => some comment
  | t :: rest =>
    match t.kind with
    | .gap => headerComment? true comment rest
    | .lineEnd => headerComment? afterSpace comment rest
    | .comment => if afterSpace then headerComment? true (t.source.drop 1) rest else none
    | _ => none

def blockNode? (root : Bool) (p : Properties) (header : Token) (indent : Nat)
    (remarks : List Token) (source : List Char) : Option (Node × Nat) := do
  let m ← p.margin?
  let read ← BlockHeader.read? header.source
  let comment ← headerComment? false [] remarks
  let content ← blockContent? root indent read (blockLines source)
  let stop := header.stop + totalWidth remarks + unitCount source
  return (.text { m with after := comment } read.style ⟨content.map .char⟩, stop)

/-- The node where an outline is missing that would come after some tokens. -/
def emptyNode? (p : Properties) (offset : Nat) (before : List Token) : Option (Node × Nat) := do
  let m ← p.margin?
  let stop := if p.comment.isEmpty then emptyPlace offset before else p.stop
  return (.text { m with before := [], after := p.comment } .plain ⟨[]⟩, stop)

/-! ## 2. Line ends in keys -/

mutual

def spansLines : Outline → Bool
  | .text t after => t.source.contains '\n' || hasKind .lineEnd (after.getD [])
  | .flow _ _ entries _ => entriesSpanLines entries
  | .block .. | .map .. | .list .. | .wrong => true
termination_by structural o => o

def entriesSpanLines : List (Entry Outline) → Bool
  | [] => false
  | ⟨start, _, key, separator, value⟩ :: rest =>
    hasKind .lineEnd start || hasKind .lineEnd (separator.getD []) || partSpansLines key ||
      partSpansLines value || entriesSpanLines rest
termination_by structural entries => entries

def partSpansLines : Option Outline → Bool
  | none => false
  | some o => spansLines o
termination_by structural o => o

end

/-! ## 3. Collections -/

/-- How far a colon can be from the start of its key. -/
def keyReach : Nat := 1024

def isFarColon (p : Properties) (colon : Token) : Bool := decide (p.start + keyReach < colon.offset)

/-- What has been read of a collection, the last first. -/
structure Gathered (α : Type) where
  offset : Nat
  /-- Where the comments end that follow the last entry. -/
  stop : Option Nat
  comment : List Char
  entries : List α

namespace Gathered

variable {α : Type}

def startingAt (offset : Nat) : Gathered α := ⟨offset, none, [], []⟩

def add (g : Gathered α) (entry : α) (offset : Nat) : Gathered α :=
  { g with entries := entry :: g.entries, offset := offset }

/-- Where a collection by indentation ends. -/
def ending (g : Gathered α) : Nat := g.stop.getD g.offset

/-- Whether an entry follows on the comments that should be last. -/
def goesOnAfterEnd (g : Gathered α) : Bool :=
  g.stop.any fun stop => decide (0 < stop) && decide (stop < g.offset)

end Gathered

inductive FlowEntry where
  | item (node : Node)
  | pair (key : Node) (value : Option Node)

namespace FlowEntry

/-- Adds a comment to what was last in an entry. -/
def addComment (comment : List Char) : FlowEntry → FlowEntry
  | .item node => .item (node.addComment comment)
  | .pair key (some value) => .pair key (some (value.addComment comment))
  | .pair key none => .pair (key.addComment comment) none

def pair? : FlowEntry → Option (Node × Option Node)
  | .item _ => none
  | .pair key value => some (key, value)

def item? : FlowEntry → Option Node
  | .item node => some node
  | .pair .. => none

/-- The entry that a key and a value make. In a list it is an item, a map of its own. -/
def ofPair (isMap : Bool) (key : Node) (value : Option Node) : FlowEntry :=
  if isMap then .pair key value else .item (.map .empty [(key, value)])

end FlowEntry

/-- A comment that stands behind a comma, on the same line. -/
def commentBehindComma (start : List Token) : List Char :=
  match start.dropWhile fun t => t.kind == .comma || t.kind == .gap with
  | t :: _ => if t.kind = .comment then t.source.drop 1 else []
  | [] => []

/-- Moves the comment behind a comma to the entry before the comma. -/
def moveComment (g : Gathered FlowEntry) (start : List Token) (p : Properties) :
    Gathered FlowEntry × Properties :=
  let comment := commentBehindComma start
  match g.entries with
  | last :: more =>
    if p.comment.isEmpty || comment.isEmpty then (g, p)
    else
      ({ g with entries := last.addComment comment :: more },
        { p with comment := p.comment.drop (comment.length + 1) })
  | [] => (g, p)

def breaksBeforeColon (separator : List Token) : Bool :=
  hasKind .lineEnd (separator.takeWhile (·.kind != .colon))

/-- Whether a closing bracket is the other one of an opening bracket. -/
def closes (opening closing : LexemeKind) : Bool :=
  (opening == .openBrace && closing == .closeBrace) ||
    (opening == .openBracket && closing == .closeBracket)

/-- Reads what closes a collection: its comment, and where it ends. -/
def closing? (opening : LexemeKind) : List Token → Option (List Char × Nat)
  | [] => none
  | t :: rest => if closes opening t.kind then remarksOf? true t.stop rest else none

/-! ## 4. Nodes -/

mutual

/-- The node of an outline, and where it ends. `root` tells whether it is that of a document. -/
def nodeOf? (root : Bool) (p : Properties) : Outline → Option (Node × Nat)
  | .text t after => textNode? p t (after.getD [])
  | .block header indent remarks source => blockNode? root p header indent remarks source
  | .map offset indent entries => do
    let m ← p.margin?
    let g ← mapEntries? indent (.startingAt offset) entries
    if g.goesOnAfterEnd then none
    else return (.map { m with after := g.comment } g.entries.reverse, g.ending)
  | .list offset indent items => do
    let m ← p.margin?
    let g ← listItems? indent (.startingAt offset) items
    if p.touchesLine then none
    else return (.list { m with after := g.comment } g.entries.reverse, g.ending)
  | .flow opening indent entries closing => do
    let m ← p.margin?
    let g ← flowEntries? (opening.kind == .openBrace) indent true (.startingAt opening.stop) entries
    let (comment, stop) ← closing? opening.kind closing
    let m := { m with after := joinComments g.comment comment }
    if opening.kind = .openBrace then
      return (.map m (g.entries.reverse.filterMap FlowEntry.pair?), stop)
    else return (.list m (g.entries.reverse.filterMap FlowEntry.item?), stop)
  | .wrong => none
termination_by structural o => o

/-- The node of an outline that may be missing after some tokens. -/
def partNode? (p : Properties) (offset : Nat) (before : List Token) :
    Option Outline → Option (Node × Nat)
  | none => emptyNode? p offset before
  | some o => nodeOf? false p o
termination_by structural o => o

def mapEntries? (indent : Nat) (g : Gathered (Node × Option Node)) :
    List (Entry Outline) → Option (Gathered (Node × Option Node))
  | [] => some g
  | ⟨start, _, key, separator, value⟩ :: rest => do
    let p ← propertiesOf? false .question (.ofParts key separator) g.offset indent true start
    let column := (key.bind Outline.indent?).getD indent
    let misplaced := match p.mark with
      | none => key.any Outline.isList || column != indent
      | some mark => mark.indent != indent
    if misplaced then none
    else if p.mark.isNone && p.isBare && separator.isNone then
      mapEntries? indent
        { g with stop := some p.stop, comment := joinComments g.comment p.comment } rest
    else if p.mark.isNone && (p.breakAfter.isSome || partSpansLines key) then none
    else
      let (keyNode, keyStop) ← partNode? p p.stop start key
      let tokens := separator.getD []
      let next := Next.ofParts value none
      let fresh := key.all Outline.isBlock
      let v ← propertiesOf? false .colon next keyStop indent fresh tokens
      if Node.repeatsKey g.entries keyNode then none
      else
        match v.mark with
        | none =>
          if p.mark.isNone then none
          else mapEntries? indent (g.add (keyNode.addComment v.comment, none) v.stop) rest
        | some colon =>
          let implicit := p.mark.isNone
          if implicit && ((value.any Outline.isMap && !v.broken) || isFarColon p colon) then none
          else
            let (node, stop) ← partNode? v v.stop tokens value
            mapEntries? indent (g.add (keyNode, some node) stop) rest
termination_by structural entries => entries

def listItems? (indent : Nat) (g : Gathered Node) : List (Entry Outline) → Option (Gathered Node)
  | [] => some g
  | ⟨start, _, _, _, value⟩ :: rest => do
    let p ← propertiesOf? false .dash (.ofParts value none) g.offset indent true start
    if p.mark.isNone then
      if p.isBare && value.isNone then
        let comment := if p.comment.isEmpty then g.comment else p.comment
        listItems? indent { g with stop := some p.stop, comment := comment } rest
      else none
    else
      let (node, stop) ← partNode? p p.stop start value
      listItems? indent (g.add node stop) rest
termination_by structural items => items

/-- The entries in brackets. `first` tells whether none came before. -/
def flowEntries? (isMap : Bool) (indent : Nat) (first : Bool) (g : Gathered FlowEntry) :
    List (Entry Outline) → Option (Gathered FlowEntry)
  | [] => some g
  | ⟨start, _, key, separator, value⟩ :: rest => do
    let p ← propertiesOf? true .question (.ofParts key separator) g.offset indent false start
    let implicit := p.mark.isNone
    if implicit && p.isBare && separator.isNone && value.isNone then
      if (first && p.comma) || !rest.isEmpty then none
      else return { g with offset := p.stop, comment := joinComments g.comment p.comment }
    else if p.comma == first || (implicit && !isMap && partSpansLines key) then none
    else
      let (g, p) := moveComment g start p
      if key.any Outline.isBlockCollection || value.any Outline.isBlockCollection then none
      else if implicit && !isMap && separator.isNone then
        let (node, stop) ← partNode? p p.stop [] value
        flowEntries? isMap indent false (g.add (.item node) stop) rest
      else
        let (keyNode, keyStop) ← partNode? p p.stop start key
        let tokens := separator.getD []
        let v ← propertiesOf? true .colon (.ofParts value none) keyStop indent false tokens
        if isMap && Node.repeatsKey (g.entries.filterMap FlowEntry.pair?) keyNode then none
        else
          match v.mark with
          | none =>
            if value.isSome then none
            else
              let entry := FlowEntry.ofPair isMap (keyNode.addComment v.comment) none
              flowEntries? isMap indent false (g.add entry v.stop) rest
          | some colon =>
            let far := breaksBeforeColon tokens || isFarColon p colon
            if implicit && !isMap && far then none
            else
              let (node, stop) ← partNode? v v.stop tokens value
              let entry := FlowEntry.ofPair isMap keyNode (some node)
              flowEntries? isMap indent false (g.add entry stop) rest
termination_by structural entries => entries

end

/-- The node of a document, and whether dashes start it. -/
def documentNode? (d : DocumentOutline) : Option (Node × Bool) := do
  let p ← propertiesOf? false .dashes (.ofParts d.value d.after) d.offset 0 true d.start
  let (node, stop) ← match d.value with
    | some o => nodeOf? true p o
    | none => emptyNode? p p.stop d.start
  let _ ← remarksOf? false stop (d.after.getD [])
  if p.mark.isSome && d.value.any Outline.isBlockCollection && !p.broken then none
  else return (node, p.mark.isSome)

end BenchSettings.Yaml
