/-
BenchSettings.Yaml.Outline.Build — outlines from lexemes.

Lexemes are taken one by one. What is not finished is kept in a stack: the
document at the bottom, in it the collections that are open, each inside the
one below, and perhaps a text on top whose line has not ended. A lexeme that
does not belong to what is on top finishes it: the top is put into what lies
below (`Builder.attach`), and the lexeme is tried again (`Builder.take`).

A lexeme belongs to a collection by indentation if it is indented far enough,
and to one in brackets until they close. Which entry of a map it belongs to
depends on what the entry has so far, and on whether the line started with a
key (`Builder.onKeyLine`).
-/
import BenchSettings.Yaml.Outline.Basic

namespace BenchSettings.Yaml

/-! ## 1. Builders -/

/-- What lies at the bottom of the stack. -/
inductive Base where
  | document (outline : DocumentOutline)
  | dots (after : List Token)

/-- What has been built so far. -/
structure Builder where
  atLineStart : Bool
  indent : Nat
  offset : Nat
  /-- Whether the line has a key, so that what follows belongs to it. -/
  onKeyLine : Bool
  base : Option Base
  /-- What is not finished, the innermost first. -/
  stack : List Outline
  /-- What is finished, the last first. -/
  sections : List Section

namespace Builder

def initial : Builder := ⟨true, 0, 0, false, none, [], []⟩

/-- Notes that something stands where it cannot. -/
def refuse (b : Builder) : Builder := { b with sections := .wrong :: b.sections }

def push (b : Builder) (o : Outline) : Builder := { b with stack := o :: b.stack }

/-! ## 2. Properties before a node -/

/-- Splits tokens before the last of them that can belong to what follows: the properties of a node,
after the last indicator or line end and the blanks behind it. -/
def splitProperties (tokens : List Token) : List Token × List Token :=
  let isBorder := fun (t : Token) =>
    t.kind == .dashes || t.kind == .question || t.kind == .colon || t.kind == .dash ||
      t.kind == .lineEnd
  let ends := (tokens.reverse.takeWhile fun t => !isBorder t).reverse
  let properties := ends.dropWhile (·.kind == .gap)
  (tokens.take (tokens.length - properties.length), properties)

def entryProperties (e : Entry Outline) : Entry Outline × List Token :=
  match e.separator with
  | some separator =>
    let (left, properties) := splitProperties separator
    ({ e with separator := some left }, properties)
  | none =>
    let (left, properties) := splitProperties e.start
    ({ e with start := left }, properties)

/-- Takes the properties off what is on top of the stack, or off the document. -/
def takeProperties (b : Builder) : Builder × List Token :=
  match b.stack with
  | .map offset indent (e :: more) :: below =>
    let (e, properties) := entryProperties e
    ({ b with stack := .map offset indent (e :: more) :: below }, properties)
  | .list offset indent (e :: more) :: below =>
    let (left, properties) := splitProperties e.start
    ({ b with stack := .list offset indent ({ e with start := left } :: more) :: below },
      properties)
  | _ :: _ => (b, [])
  | [] =>
    match b.base with
    | some (.document d) =>
      let (left, properties) := splitProperties d.start
      ({ b with base := some (.document { d with start := left }) }, properties)
    | _ => (b, [])

/-- Opens the node that a token starts, on top of the stack, if it starts any. -/
def open? (b : Builder) (t : Token) : Option Builder :=
  match t.kind with
  | .text | .single | .double | .reference => some (b.push (.text t none))
  | .header => some (b.push (.block t t.indent [] []))
  | .openBracket | .openBrace => some (b.push (.flow t t.indent [] []))
  | .dash => some (b.push (.list t.offset t.indent [.opened [t]]))
  | .question =>
    let (b, properties) := b.takeProperties
    let e : Entry Outline := ⟨properties ++ [t], true, none, none, none⟩
    some { b.push (.map t.offset t.indent [e]) with onKeyLine := true }
  | .colon =>
    let (b, properties) := b.takeProperties
    let e : Entry Outline := ⟨properties, false, none, some [t], none⟩
    some { b.push (.map t.offset t.indent [e]) with onKeyLine := true }
  | _ => none

/-! ## 3. Finishing -/

/-- An entry of a list in brackets that has no colon: its key is an item. -/
def itemOfKey (e : Entry Outline) : Entry Outline :=
  match e.separator, e.value with
  | some separator, none =>
    if hasKind .question e.start || hasKind .colon separator then e
    else
      match e.key with
      | some key =>
        if key.isInline then ⟨e.start, e.announced, none, none, some (key.addAfter separator)⟩
        else ⟨e.start ++ separator, e.announced, none, none, some key⟩
      | none => ⟨e.start ++ separator, e.announced, none, none, none⟩
  | _, _ => e

/-- Lists the entries of a finished collection in their order. -/
def finished : Outline → Outline
  | .map offset indent entries => .map offset indent entries.reverse
  | .list offset indent items => .list offset indent items.reverse
  | .flow opening indent entries closing =>
    let entries := entries.reverse
    .flow opening indent
      (if opening.kind = .openBracket then entries.map itemOfKey else entries) closing
  | o => o

/-- Whether an entry holds nothing but trivia that can follow its collection. -/
def isTrailing (indent : Nat) (e : Entry Outline) : Bool :=
  e.separator.isNone && e.value.isNone && !e.start.isEmpty && e.start.all Token.isTrivia &&
    (indent == 0 || e.start.all fun t => t.kind != .comment || decide (t.indent < indent))

/-- Takes the trivia off the end of a collection that belong to what holds it. -/
def splitTrailing : Outline → Outline × Option (List Token)
  | .map offset indent (e :: more) =>
    if isTrailing indent e then (.map offset indent more, some e.start)
    else (.map offset indent (e :: more), none)
  | .list offset indent (e :: more) =>
    if isTrailing indent e then (.list offset indent more, some e.start)
    else (.list offset indent (e :: more), none)
  | o => (o, none)

def trailingEntry (trailing : Option (List Token)) : List (Entry Outline) :=
  (trailing.map Entry.opened).toList

/-- Gives a block or a collection in brackets the indentation of what holds it. -/
def settleIndent (b : Builder) : Outline → Outline
  | .block header _ remarks source =>
    .block header ((b.stack.head?.bind Outline.indent?).getD 0) remarks source
  | .flow opening indent entries closing =>
    .flow opening (if b.stack.isEmpty then 0 else indent) entries closing
  | o => o

/-- Puts a finished outline into what is on top of the stack, or makes it the value of the
document. -/
def attach (b : Builder) (o : Outline) : Builder :=
  let o := settleIndent b o
  let (split, trailing) := splitTrailing o
  match b.stack with
  | .map offset indent (e :: more) :: below =>
    if e.value.isSome then
      let entries := ⟨[], false, some (finished o), some [], none⟩ :: e :: more
      { b with stack := .map offset indent entries :: below, onKeyLine := true }
    else if e.separator.isSome then
      let entries := trailingEntry trailing ++ { e with value := some (finished split) } :: more
      { b with stack := .map offset indent entries :: below }
    else
      let entries := { e with key := some (finished o), separator := some [] } :: more
      { b with stack := .map offset indent entries :: below, onKeyLine := !e.announced }
  | .list offset indent (e :: more) :: below =>
    let items :=
      if e.value.isSome then ⟨[], false, none, none, some (finished split)⟩ :: e :: more
      else { e with value := some (finished split) } :: more
    { b with stack := .list offset indent (trailingEntry trailing ++ items) :: below }
  | .flow opening indent entries closing :: below =>
    let entries := match entries with
      | [] => [⟨[], false, some (finished o), some [], none⟩]
      | e :: more =>
        if e.value.isSome then ⟨[], false, some (finished o), some [], none⟩ :: e :: more
        else if e.separator.isSome then { e with value := some (finished o) } :: more
        else { e with key := some (finished o), separator := some [] } :: more
    { b with stack := .flow opening indent entries closing :: below }
  | _ :: _ => b.refuse
  | [] =>
    match b.base with
    | some (.document d) =>
      let d := { d with value := some (finished split), after := trailing.or d.after }
      { b with base := some (.document d) }
    | _ => b.refuse

def pop (b : Builder) : Builder :=
  match b.stack with
  | o :: below => { b with stack := below }.attach o
  | [] =>
    match b.base with
    | some (.document d) => { b with base := none, sections := .document d :: b.sections }
    | some (.dots after) => { b with base := none, sections := .dots after :: b.sections }
    | none => b

def popAll (b : Builder) : Builder := (b.stack.length + 1).repeat pop b

/-! ## 4. Lexemes in a text, a block or a document -/

/-- Whether a token finishes what a line holds before it is taken. -/
def endsNode : LexemeKind → Bool
  | .comma | .dashes | .dots | .closeBracket | .closeBrace | .colon => true
  | _ => false

/-- A token after a text or a closing bracket on top of the stack. -/
def takeAfter (again : Builder → Builder) (b : Builder) (o : Outline) (below : List Outline)
    (t : Token) : Builder :=
  if endsNode t.kind then again b
  else if t.kind = .lineEnd then
    { b with stack := o.addAfter [t] :: below, onKeyLine := false }.pop
  else { b with stack := o.addAfter [t] :: below }

/-- Makes a node that a colon follows the key of a map. -/
def openAt (b : Builder) (key : Outline) (offset indent : Nat) (separator : List Token)
    (below : List Outline) : Builder :=
  let (b, properties) := { b with stack := below }.takeProperties
  let e : Entry Outline := ⟨properties, false, some key, some separator, none⟩
  { b.push (.map offset indent [e]) with onKeyLine := true }

def takeInText (again : Builder → Builder) (b : Builder) (token : Token)
    (after : Option (List Token)) (below : List Outline) (t : Token) : Builder :=
  if t.kind = .colon then
    b.openAt (.text token none) token.offset token.indent (after.getD [] ++ [t]) below
  else takeAfter again b (.text token after) below t

def takeInBlock (again : Builder → Builder) (b : Builder) (header : Token) (indent : Nat)
    (remarks : List Token) (below : List Outline) (t : Token) : Builder :=
  if t.isTrivia then { b with stack := .block header indent (remarks ++ [t]) [] :: below }
  else if t.kind = .text then
    { b with
      stack := .block header indent remarks t.source :: below, atLineStart := true,
      indent := 0 }.pop
  else again b

def takeOutside (b : Builder) (t : Token) : Builder :=
  match t.kind with
  | .directive => { b with sections := .directive t.source :: b.sections }
  | .byteOrderMark | .gap | .comment | .lineEnd => b
  | .content => { b with base := some (.document ⟨t.offset, [], none, none⟩) }
  | .dashes => { b with base := some (.document ⟨t.offset, [t], none, none⟩) }
  | _ => b.refuse

/-- A token on the line of the dots after a document. -/
def takeAfterDots (b : Builder) (after : List Token) (t : Token) : Builder :=
  if t.kind = .content then b
  else
    let b := { b with base := some (.dots (after ++ [t])) }
    if t.kind = .lineEnd then b.pop else b

def takeInDocument (again : Builder → Builder) (b : Builder) (d : DocumentOutline) (t : Token) :
    Builder :=
  if d.value.isSome then
    if endsNode t.kind then again b
    else
      let d := { d with after := some (d.after.getD [] ++ [t]) }
      let b := { b with base := some (.document d) }
      if t.kind = .lineEnd then { b with onKeyLine := false }.pop else b
  else if t.kind = .dashes ∧ !d.start.all Token.isTrivia then again b
  else if t.kind = .dashes ∨ t.kind = .anchor ∨ t.kind = .tag ∨ t.isTrivia then
    { b with base := some (.document { d with start := d.start ++ [t] }) }
  else (b.open? t).getD b.refuse

/-! ## 5. Lexemes in collections by indentation -/

def endsWithComment (e : Entry Outline) : Bool :=
  ((e.value.bind Outline.after?).bind List.getLast?).any (·.kind == .comment)

def addAfterValue (more : List Token) (e : Entry Outline) : Entry Outline :=
  { e with value := e.value.map (Outline.addAfter more) }

/-- Adds a token to what comes before a key or after it. -/
def addToEntry (t : Token) (e : Entry Outline) : Entry Outline :=
  match e.separator with
  | some separator => { e with separator := some (separator ++ [t]) }
  | none => { e with start := e.start ++ [t] }

/-- Blanks, a comment or a line end in a collection, whose entries these become. A comment that is
indented further than the collection belongs to the entry before it. -/
def takeTrivia (indent : Nat) (e : Entry Outline) (more : List (Entry Outline)) (t : Token) :
    List (Entry Outline) :=
  if e.value.isSome then
    if t.kind = .lineEnd ∧ endsWithComment e then addAfterValue [t] e :: more
    else .opened [t] :: e :: more
  else if e.separator.isNone ∧ t.kind = .comment ∧ indent < t.indent ∧
      e.start.all fun s => s.kind == .lineEnd || s.kind == .gap then
    match more with
    | previous :: rest =>
      if ((previous.value.bind Outline.after?)).isSome then
        addAfterValue (e.start ++ [t]) previous :: rest
      else addToEntry t e :: more
    | [] => addToEntry t e :: more
  else addToEntry t e :: more

/-- The place of the second line end in the trivia that tokens end with, if it has two. A comment
that is indented further than `indent` is no trivia here. -/
def secondLineEnd? (indent : Nat) (tokens : List Token) : Option Nat :=
  let step := fun (s : Nat × Nat × Option Nat) (t : Token) =>
    let (place, count, second) := s
    if t.kind == .lineEnd then (place + 1, count + 1, if count = 1 then some place else second)
    else if t.kind == .gap || (t.kind == .comment && decide (t.indent ≤ indent)) then
      (place + 1, count, second)
    else (place + 1, 0, none)
  (tokens.foldl step (0, 0, none)).2.2

/-- Takes the trivia off an entry without a value that belong to the next entry. -/
def splitSeparator (indent : Nat) (e : Entry Outline) : Entry Outline × List Token :=
  match e.separator, e.value with
  | some separator, none =>
    match secondLineEnd? indent separator with
    | some place => ({ e with separator := some (separator.take place) }, separator.drop place)
    | none => (e, [])
  | _, _ => (e, [])

/-- A colon in a map whose current entry has an announced key. -/
def takeColonAnnounced (b : Builder) (inside : List (Entry Outline) → Builder)
    (e : Entry Outline) (more : List (Entry Outline)) (start : List Token) (t : Token) : Builder :=
  match e.separator with
  | none =>
    if hasKind .lineEnd e.start then inside ({ e with separator := some [t] } :: more)
    else
      let (left, properties) := splitProperties e.start
      (inside ({ e with start := left } :: more)).push
        (.map b.offset b.indent [⟨properties, false, none, some [t], none⟩])
  | some separator =>
    if e.value.isSome then inside (⟨[], false, none, some [t], none⟩ :: e :: more)
    else if hasKind .colon separator then
      (inside (e :: more)).push (.map b.offset b.indent [⟨start, false, none, some [t], none⟩])
    else if e.key.any Outline.isInline && !hasKind .lineEnd separator then
      let (left, properties) := splitProperties e.start
      (inside (⟨left, e.announced, none, none, none⟩ :: more)).push
        (.map b.offset b.indent [⟨properties, false, e.key, some (separator ++ [t]), none⟩])
    else inside ({ e with separator := some (separator ++ start ++ [t]) } :: more)

/-- A colon in a map whose current entry has no announced key. -/
def takeColon (b : Builder) (inside : List (Entry Outline) → Builder) (next : Bool)
    (e : Entry Outline) (more : List (Entry Outline)) (start : List Token) (t : Token) : Builder :=
  match e.separator with
  | none => inside ({ e with separator := some [t] } :: more)
  | some separator =>
    if e.value.isSome || next then inside (⟨start, false, none, some [t], none⟩ :: e :: more)
    else if hasKind .colon separator then
      (inside (e :: more)).push (.map b.offset b.indent [⟨[], false, none, some [t], none⟩])
    else inside ({ e with separator := some (separator ++ [t]) } :: more)

def takeInMap (again : Builder → Builder) (b : Builder) (offset indent : Nat)
    (e : Entry Outline) (more : List (Entry Outline)) (below : List Outline) (t : Token) :
    Builder :=
  if b.indent < indent then again b
  else
    let inColumn := !b.onKeyLine && b.indent == indent
    let next := inColumn && (e.separator.isSome || e.announced) && t.kind != .dash
    let (e, start) := if next then splitSeparator indent e else (e, [])
    let inside := fun (entries : List (Entry Outline)) =>
      { b with stack := .map offset indent entries :: below }
    let onKey := fun (b : Builder) => { b with onKeyLine := true }
    match t.kind with
    | .anchor | .tag =>
      if next || e.value.isSome then onKey (inside (.opened (start ++ [t]) :: e :: more))
      else inside (addToEntry t e :: more)
    | .question =>
      if e.separator.isNone && !e.announced then
        onKey (inside ({ e with start := e.start ++ [t], announced := true } :: more))
      else if next || e.value.isSome then
        onKey (inside (⟨start ++ [t], true, none, none, none⟩ :: e :: more))
      else
        onKey ((inside (e :: more)).push
          (.map b.offset b.indent [⟨[t], true, none, none, none⟩]))
    | .colon =>
      if e.announced then onKey (takeColonAnnounced b inside e more start t)
      else onKey (takeColon b inside next e more start t)
    | .text | .single | .double | .reference =>
      let key := some (Outline.text t none)
      if next || e.value.isSome then
        onKey (inside (⟨start, false, key, some [], none⟩ :: e :: more))
      else if e.separator.isSome then (inside (e :: more)).push (.text t none)
      else onKey (inside ({ e with key := key, separator := some [] } :: more))
    | .dash =>
      if !e.announced && e.separator.any fun separator => !hasKind .lineEnd separator then
        (inside (e :: more)).attach .wrong
      else ((inside (e :: more)).open? t).getD (again b)
    | _ =>
      let entries := if inColumn then .opened start :: e :: more else e :: more
      ((inside entries).open? t).getD (again (inside (e :: more)))

def takeInList (again : Builder → Builder) (b : Builder) (offset indent : Nat)
    (e : Entry Outline) (more : List (Entry Outline)) (below : List Outline) (t : Token) :
    Builder :=
  let inside := fun (items : List (Entry Outline)) =>
    { b with stack := .list offset indent items :: below }
  let others := if indent < b.indent then (b.open? t).getD (again b) else again b
  match t.kind with
  | .anchor | .tag =>
    if e.value.isSome || b.indent ≤ indent then others
    else inside ({ e with start := e.start ++ [t] } :: more)
  | .dash =>
    if b.indent ≠ indent then others
    else if e.value.isSome || hasKind .dash e.start then inside (.opened [t] :: e :: more)
    else inside ({ e with start := e.start ++ [t] } :: more)
  | _ => others

/-! ## 6. Lexemes in brackets -/

/-- A token between brackets, which are the ones of `entries` when they are open. -/
def takeInOpenFlow (again : Builder → Builder) (b : Builder) (opening : Token) (indent : Nat)
    (entries : List (Entry Outline)) (below : List Outline) (t : Token) : Builder :=
  let inside := fun (entries : List (Entry Outline)) =>
    { b with stack := .flow opening indent entries [] :: below }
  match t.kind with
  | .comma | .question =>
    match entries with
    | [] => inside [.opened [t]]
    | e :: more =>
      if e.separator.isSome then inside (.opened [t] :: e :: more)
      else inside ({ e with start := e.start ++ [t] } :: more)
  | .colon =>
    match entries with
    | [] => inside [⟨[], false, none, some [t], none⟩]
    | e :: more =>
      if e.value.isSome then inside (⟨[], false, none, some [t], none⟩ :: e :: more)
      else
        inside ({ e with separator := some (e.separator.getD [] ++ [t]) } :: more)
  | .gap | .comment | .lineEnd | .anchor | .tag =>
    match entries with
    | [] => inside [.opened [t]]
    | e :: more =>
      if e.value.isSome then inside (.opened [t] :: e :: more)
      else inside (addToEntry t e :: more)
  | .text | .single | .double | .reference =>
    let key := some (Outline.text t none)
    match entries with
    | [] => inside [⟨[], false, key, some [], none⟩]
    | e :: more =>
      if e.value.isSome then inside (⟨[], false, key, some [], none⟩ :: e :: more)
      else if e.separator.isSome then b.push (.text t none)
      else inside ({ e with key := key, separator := some [] } :: more)
  | .closeBracket | .closeBrace =>
    { b with stack := .flow opening indent entries [t] :: below }
  | _ => (b.open? t).getD (again b)

def takeAfterFlow (again : Builder → Builder) (b : Builder) (opening : Token) (indent : Nat)
    (entries : List (Entry Outline)) (closing : List Token) (below : List Outline) (t : Token) :
    Builder :=
  let flow := Outline.flow opening indent entries closing
  let endsKey : Bool := match below with
    | .map _ column (e :: _) :: _ =>
      (t.kind == .colon && column == indent) || (t.kind == .lineEnd && e.separator.isNone)
    | _ => false
  if endsKey then again b
  else if t.kind = .colon ∧ !(below.head?.any Outline.isFlow) then
    let key := finished (.flow opening indent entries (closing.take 1))
    b.openAt key opening.offset indent (closing.drop 1 ++ [t]) below
  else takeAfter again b flow below t

def popFlows : Nat → Builder → Builder
  | 0, b => b
  | fuel + 1, b =>
    let b := b.pop
    if b.stack.head?.any Outline.isFlow then popFlows fuel b else b

/-! ## 7. All lexemes -/

/-- Takes a token. What it does not belong to is finished, and then it is tried again. -/
def take : Nat → Builder → Token → Builder
  | 0, b, _ => b.refuse
  | fuel + 1, b, t =>
    let again := fun (b : Builder) => take fuel b.pop t
    let afterDots := match b.base with
      | some (.dots _) => true
      | _ => false
    if t.kind = .dots ∧ !afterDots then { b.popAll with base := some (.dots []) }
    else
      match b.stack with
      | [] =>
        match b.base with
        | none => b.takeOutside t
        | some (.dots after) => b.takeAfterDots after t
        | some (.document d) => b.takeInDocument again d t
      | .text token after :: below => b.takeInText again token after below t
      | .block header indent remarks _ :: below => b.takeInBlock again header indent remarks below t
      | .map offset indent (e :: more) :: below =>
        if t.isTrivia then
          { b with
            stack := .map offset indent (takeTrivia indent e more t) :: below,
            onKeyLine := b.onKeyLine && t.kind != .lineEnd }
        else b.takeInMap again offset indent e more below t
      | .list offset indent (e :: more) :: below =>
        if t.isTrivia then
          { b with stack := .list offset indent (takeTrivia indent e more t) :: below }
        else b.takeInList again offset indent e more below t
      | .flow opening indent entries closing :: below =>
        if t.kind = .torn then popFlows (below.length + 1) b
        else if closing.isEmpty then b.takeInOpenFlow again opening indent entries below t
        else b.takeAfterFlow again opening indent entries closing below t
      | _ :: _ => b.refuse

def advance (b : Builder) (t : Token) : Builder :=
  match t.kind with
  | .lineEnd => { b with atLineStart := true, indent := 0, offset := t.stop }
  | .gap =>
    let indents := b.atLineStart && t.source.head? == some ' '
    let indent := if indents then b.indent + t.width else b.indent
    { b with indent := indent, offset := t.stop }
  | .question | .colon | .dash =>
    let indent := if b.atLineStart then b.indent + t.width else b.indent
    { b with indent := indent, offset := t.stop }
  | .content | .torn => b
  | .text | .junk => { b with offset := t.stop }
  | _ => { b with atLineStart := false, offset := t.stop }

def feed (b : Builder) (l : Lexeme) : Builder :=
  let t : Token := ⟨l.kind, l.source, b.offset, b.indent⟩
  let b := if l.kind = .text then { b with atLineStart := false } else b
  if l.kind = .junk then b.refuse.advance t
  else (take (b.stack.length + 3) b t).advance t

end Builder

/-- The sections that lexemes make up. -/
def sectionsOf (lexemes : List Lexeme) : List Section :=
  (lexemes.foldl Builder.feed .initial).popAll.sections.reverse

end BenchSettings.Yaml
