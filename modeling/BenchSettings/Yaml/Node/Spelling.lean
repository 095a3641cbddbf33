/-
BenchSettings.Yaml.Node.Spelling — the name of a collection that is a key.

A name is a text, so a list or a map that stands as a key is listed under its
spelling: the collection in brackets, with the anchors, comments and quotes of
what is in it. It stands on one line if it fits and nothing asks for more, and
else each entry has a line of its own. Texts in it that are too long for their
line are folded at a blank, and those in double quotes also elsewhere.

Widths and places are counted in units, and a fold can come between the halves
of a pair, so all spellings here are runs of units.
-/
import BenchSettings.Json.Printer
import BenchSettings.Text.Blank
import BenchSettings.Yaml.Node.Basic
import BenchSettings.Yaml.Token.Basic

namespace BenchSettings.Yaml

open Text (Loose)

/-! ## 1. Format -/

structure SpellingFormat where
  /-- The width of a line. -/
  width : Nat
  /-- The least width that is left for a text. -/
  least : Nat
  /-- How far the entries of a collection are indented. -/
  step : Nat
  /-- From which width on a text in double quotes has its own line ends. -/
  breaking : Nat

/-- The format of names: lines of 80, indented by 2. -/
def nameFormat : SpellingFormat := ⟨80, 20, 2, 40⟩

/-- Where a spelling stands. -/
structure Layout where
  /-- Whether it has to stay on its line, before a colon. -/
  inline : Bool
  indent : Nat
  /-- How much of the first line is taken, if that is known. -/
  taken : Option Nat
  deriving DecidableEq, Repr

def unitsOf (cs : List Char) : List Nat := cs.flatMap Text.charUnits

def blanks (n : Nat) : List Char := List.replicate n ' '

/-! ## 2. Folding -/

def isGapUnit (unit : Nat) : Bool := unit == 0x20 || unit == 0x09

/-- A unit next to which a blank can become a line end. -/
def isInk (unit : Nat) : Bool := !isGapUnit unit && unit != 0x0a

/-- A place where a text is folded. In double quotes the line end may have to be escaped. -/
structure Fold where
  place : Nat
  escaped : Bool
  deriving DecidableEq, Repr

/-- What is known while looking for folds. -/
structure FoldState where
  /-- Where the line is full. -/
  full : Nat
  /-- The last blank that could become a line end. -/
  blank : Option Nat
  previous : Option Nat
  /-- Where the last escape starts and ends. -/
  escape : Option (Nat × Nat)
  /-- The folds found, the last first. -/
  folds : List Fold

/-- How many units of an escape come after the backslash. -/
def escapeWidth : Option Nat → Nat
  | some unit => if unit = 0x78 then 3 else if unit = 0x75 then 5 else if unit = 0x55 then 9 else 1
  | none => 1

/-- Where a full line in double quotes ends that has no blank: two units back, or before an escape
that ends there. -/
def breakPlace (escape : Option (Nat × Nat)) (i : Nat) : Nat :=
  match escape with
  | none => i - 2
  | some (start, stop) => if stop + 1 < i then i - 2 else start - 1

/-- The folds of a text from place `i` on, for lines of `step` units; none if a line is too short
for an escape. A line of a text in double quotes can end anywhere. -/
def folds? (quoted : Bool) (indent step : Nat) (text : Array Nat) (i : Nat) (s : FoldState) :
    Option (List Fold) :=
  if _inside : i < text.size then
    let unit := text[i]
    let isEscape := quoted && unit == 0x5c
    let last := i + (if isEscape then escapeWidth text[i + 1]? else 0)
    let next := text[last + 1]?
    let opens := unit == 0x20 && s.previous.any isInk && next.any isInk
    let blank := if opens then some i else s.blank
    let escape := if isEscape then some (i, last) else s.escape
    if unit = 0x0a then
      folds? quoted indent step text (last + 1)
        ⟨last + indent + step, none, some unit, escape, s.folds⟩
    else if last < s.full then
      folds? quoted indent step text (last + 1) ⟨s.full, blank, some unit, escape, s.folds⟩
    else
      match blank with
      | some place =>
        folds? quoted indent step text (last + 1)
          ⟨place + step, none, some unit, escape, ⟨place, false⟩ :: s.folds⟩
      | none =>
        if quoted then
          let gap := if isGapUnit unit then unit :: text.toList.drop (last + 1) else []
          let skipped :=
            if s.previous.any isGapUnit then 1 + (gap.takeWhile isGapUnit).length else 0
          let reached := last + skipped
          let fold : Fold := ⟨breakPlace escape reached, true⟩
          if s.folds.contains fold then none
          else
            let previous := if skipped = 0 then some unit else text[reached]?
            folds? quoted indent step text (reached + 1)
              ⟨fold.place + step, none, previous, escape, fold :: s.folds⟩
        else folds? quoted indent step text (last + 1) ⟨s.full, none, some unit, escape, s.folds⟩
  else some s.folds
termination_by text.size - i

/-- A text with line ends at some places, each with blanks behind it. The blank at a place is
dropped, unless the line end is escaped. -/
def foldAt (indent : List Nat) (text : List Nat) : List Fold → List Nat
  | [] => []
  | ⟨place, escaped⟩ :: rest =>
    let stop := (rest.head?.map Fold.place).getD text.length
    let start := if place = 0 then 0 else place + 1
    let kept := if escaped then (text.drop place).take 1 ++ [0x5c] else []
    kept ++ 0x0a :: indent ++ (text.take stop).drop start ++ foldAt indent text rest

/-- Folds the lines of a text that are too long. -/
def foldSpelling (f : SpellingFormat) (quoted : Bool) (l : Layout) (text : List Nat) : List Nat :=
  let step := max (1 + f.least) (1 + f.width - l.indent)
  if text.length ≤ step then text
  else
    let late := l.taken.any fun taken => decide (f.width - max 2 f.least < taken)
    let full := if late then f.width - l.indent else f.width - l.taken.getD l.indent
    let first : List Fold := if late then [⟨0, false⟩] else []
    match folds? quoted l.indent step text.toArray 0 ⟨full, none, none, none, first⟩ with
    | none => text
    | some folds =>
      let folds := folds.reverse
      match folds with
      | [] => text
      | fold :: _ => text.take fold.place ++ foldAt (unitsOf (blanks l.indent)) text folds

/-! ## 3. Texts -/

/-- The shorter escape that can stand for one with four hex digits. -/
def shortEscape (digits : List Char) : List Char :=
  if digits = "0000".toList then ['\\', '0']
  else if digits = "0007".toList then ['\\', 'a']
  else if digits = "000b".toList then ['\\', 'v']
  else if digits = "001b".toList then ['\\', 'e']
  else if digits.take 2 = ['0', '0'] then '\\' :: 'x' :: digits.drop 2
  else '\\' :: 'u' :: digits

/-- Takes off escaped line feeds, as long as they are not the last thing before the quote. -/
def splitEscapedFeeds : List Char → Nat × List Char
  | '\\' :: 'n' :: rest =>
    if rest.head? = some '"' then (0, '\\' :: 'n' :: rest)
    else
      let (n, rest) := splitEscapedFeeds rest
      (n + 1, rest)
  | cs => (0, cs)

theorem splitEscapedFeeds_length (cs : List Char) :
    (splitEscapedFeeds cs).2.length ≤ cs.length := by
  fun_induction splitEscapedFeeds cs
  · simp
  · simp_all
    omega
  · simp

/-- Writes a quoted text with the escapes of this notation. If `breaking` is set, line feeds are
written as line ends with `indent` blanks, unless they are last. -/
def respell (breaking : Bool) (indent : Nat) : List Char → List Char
  | ' ' :: '\\' :: 'n' :: rest => '\\' :: ' ' :: respell breaking indent ('\\' :: 'n' :: rest)
  | '\\' :: 'u' :: a :: b :: c :: d :: rest =>
    shortEscape [a, b, c, d] ++ respell breaking indent rest
  | '\\' :: 'n' :: rest =>
    if breaking = false ∨ rest.head? = some '"' then '\\' :: 'n' :: respell breaking indent rest
    else
      let feeds := List.replicate ((splitEscapedFeeds rest).1 + 2) '\n'
      let after := (splitEscapedFeeds rest).2
      feeds ++ blanks indent ++ (if after.head? = some ' ' then ['\\'] else []) ++
        respell breaking indent (splitEscapedFeeds rest).2
  | '\\' :: c :: rest => '\\' :: c :: respell breaking indent rest
  | c :: rest => c :: respell breaking indent rest
  | [] => []
termination_by cs => cs.length
decreasing_by
  all_goals try simp only [List.length_cons]
  all_goals try omega
  have := splitEscapedFeeds_length rest
  omega

def doubleSpelling (f : SpellingFormat) (l : Layout) (text : Loose) : List Nat :=
  let quoted := Json.quote text
  let breaking := !l.inline && decide (f.breaking ≤ (unitsOf quoted).length)
  let units := unitsOf (respell breaking l.indent quoted)
  if l.inline then units else foldSpelling f true l units

/-- Writes one more line feed after each run of them, with `indent` blanks. -/
def spreadFeeds (indent : Nat) : List Char → List Char
  | [] => []
  | c :: rest =>
    let below := spreadFeeds indent rest
    if c = '\n' ∧ rest.head? ≠ some '\n' then '\n' :: '\n' :: blanks indent ++ below
    else c :: below

/-- Whether two characters with these classes come one after the other. -/
def hasPair (first second : Char → Bool) (cs : List Char) : Bool :=
  (cs.zip (cs.drop 1)).any fun (a, b) => first a && second b

/-- Whether a line starts or ends with a gap. -/
def hasLooseGap (cs : List Char) : Bool :=
  hasPair isGap (· == '\n') cs || hasPair (· == '\n') isGap cs

/-- A text without halves of pairs in single quotes, or in double quotes where those would change
it. -/
def singleSpelling (f : SpellingFormat) (l : Layout) (text : Loose) : List Nat :=
  let cs := text.shown.toList
  if (l.inline && cs.contains '\n') || hasLooseGap cs then doubleSpelling f l text
  else
    let doubled := cs.flatMap fun c => if c = '\x27' then [c, c] else [c]
    let units := unitsOf ('\x27' :: spreadFeeds l.indent doubled ++ ['\x27'])
    if l.inline then units else foldSpelling f false l units

/-- A text in double quotes, or in single quotes if only double quotes are in it. -/
def quotedSpelling (f : SpellingFormat) (l : Layout) (text : Loose) : List Nat :=
  let cs := text.shown.toList
  if cs.contains '"' && !cs.contains '\x27' then singleSpelling f l text
  else doubleSpelling f l text

/-- A character that would start something else than a plain text. -/
def startsOther (c : Char) : Bool :=
  isGap c || isFlowMark c || c == '\n' || c == '#' || c == '&' || c == '*' || c == '!' ||
    c == '|' || c == '>' || c == '\x27' || c == '"' || c == '%' || c == '@' || c == '\x60'

/-- Whether a text has to be quoted in brackets. -/
def needsQuotes (inline : Bool) (cs : List Char) : Bool :=
  let isMark := fun (c : Char) => c == '?' || c == '-'
  let isEnd := fun (c : Char) => isGap c || c == '\n' || c == ':' || c == '-'
  (inline && cs.contains '\n') || cs.any isFlowMark || cs.head?.any startsOther || cs == ['?'] ||
    (cs.head?.any isMark && (cs.drop 1).head?.any isGap) ||
    hasPair (fun c => c == '\n' || c == ':') isGap cs || hasLooseGap cs ||
    hasPair (fun c => isGap c || c == '\n') (· == '#') cs || cs.getLast?.any isEnd

/-- A plain text, if it can be one. -/
def plainSpelling (f : SpellingFormat) (l : Layout) (text : Loose) : List Nat :=
  let cs := text.shown.toList
  if needsQuotes l.inline cs then quotedSpelling f l text
  else
    let units := unitsOf (spreadFeeds l.indent cs)
    if l.inline then units else foldSpelling f false l units

/-- A sign that can only stand in double quotes: a control character or half of a pair. -/
def isUnprintable : Text.Sign → Bool
  | .half _ => true
  | .char c => (c < ' ' && c != '\t' && c != '\n') || ('\x7f' ≤ c && c ≤ '\u009f')

/-- The spelling of a text, as it was written where that can be. -/
def textSpelling (f : SpellingFormat) (l : Layout) (style : Style) (text : Loose) : List Nat :=
  if style = .double ∨ text.signs.any isUnprintable = true then doubleSpelling f l text
  else
    match style with
    | .single => singleSpelling f l text
    | .plain => plainSpelling f l text
    | _ => quotedSpelling f l text

/-! ## 4. Comments -/

/-- A character after which a line of a comment starts. -/
def isCommentBreak (c : Char) : Bool :=
  c == '\n' || c == '\r' || c == '\u2028' || c == '\u2029'

/-- Splits after every line break. -/
def commentLines : List Char → List (List Char)
  | [] => [[]]
  | c :: rest =>
    if isCommentBreak c then [c] :: commentLines rest
    else
      match commentLines rest with
      | l :: more => (c :: l) :: more
      | [] => [[c]]

/-- A comment with a sign before each line that is not empty. A line of one blank is the sign
alone. -/
def markComment (comment : List Char) : List Char :=
  (commentLines comment).flatMap fun l =>
    match l with
    | [] => []
    | c :: rest =>
      if isCommentBreak c then l
      else if c = ' ' ∧ rest.head?.all isCommentBreak then '#' :: rest
      else '#' :: l

/-- A comment with blanks before each line that has anything else. -/
def indentComment (indent : Nat) (comment : List Char) : List Char :=
  if comment ≠ [] ∧ comment.all (· == '\n') = true then comment.drop 1
  else
    (commentLines comment).flatMap fun l =>
      if (l.dropWhile (· == ' ')).head?.all isCommentBreak then l else blanks indent ++ l

/-- What comes between a spelling and its comment, with the comment. -/
def trailingComment (indent : Nat) (spelling : List Nat) (comment : List Char) : List Nat :=
  let marked := markComment comment
  if spelling.getLast? = some 0x0a then unitsOf (indentComment indent marked)
  else if marked.contains '\n' then unitsOf ('\n' :: indentComment indent marked)
  else if spelling.getLast? = some 0x20 then unitsOf marked
  else unitsOf (' ' :: marked)

/-! ## 5. Collections -/

/-- An entry of a collection: the lines above it, its own, and whether all entries need a line of
their own because of it. -/
structure Row where
  above : List (List Nat)
  own : List Nat
  breaks : Bool

def linesAbove (indent : Nat) (m : Margin) : List (List Nat) :=
  (if m.spaced then [[]] else []) ++
    (if m.before.isEmpty then []
    else [unitsOf ((indentComment indent (markComment m.before)).dropWhile Text.isBlank)])

/-- The row of an entry whose collection is indented by `outer`, with a comment after it. -/
def rowOf (outer inner : Nat) (m : Margin) (spelling : List Nat) (isLast : Bool)
    (comment : List Char) (breaks : Bool) : Row :=
  let own := if isLast then spelling else spelling ++ [0x2c]
  let own := if comment.isEmpty then own else own ++ trailingComment inner own comment
  let above := linesAbove outer m
  ⟨above, own, breaks || !comment.isEmpty || !above.isEmpty || own.contains 0x0a⟩

def bracketed (f : SpellingFormat) (indent : Nat) (left right : Char) (rows : List Row) :
    List Nat :=
  let lines := rows.flatMap fun r => r.above ++ [r.own]
  let width := lines.foldl (fun width line => width + line.length + 2) 2
  let start := unitsOf [left]
  let stop := unitsOf [right]
  if lines.isEmpty then start ++ stop
  else if rows.any Row.breaks || decide (f.width < width) then
    let inside := lines.flatMap fun line =>
      if line.isEmpty then [0x0a] else 0x0a :: unitsOf (blanks (f.step + indent)) ++ line
    start ++ inside ++ 0x0a :: unitsOf (blanks indent) ++ stop
  else start ++ 0x20 :: List.intercalate [0x20] lines ++ 0x20 :: stop

def withAnchor (m : Margin) (spelling : List Nat) : List Nat :=
  match m.anchor with
  | none => spelling
  | some anchor => unitsOf ('&' :: anchor.name) ++ 0x20 :: spelling

def Layout.afterAnchor (m : Margin) (l : Layout) : Layout :=
  match m.anchor with
  | none => l
  | some anchor => { l with taken := some (l.taken.getD 0 + (unitsOf anchor.name).length + 2) }

namespace Node

/-- Whether a key has to be announced by a question mark. -/
def isAnnounced : Node → Bool
  | .text _ style _ => style.isBlock
  | .list .. | .map .. | .reference .. => true

def keyLayout (f : SpellingFormat) (l : Layout) (bare : Bool) (key : Node) : Layout :=
  ⟨!key.isAnnounced && !bare, l.indent + f.step, l.taken⟩

def withColon (l : Layout) (key : Node) (spelling : List Nat) : List Nat :=
  let comment := key.margin.after
  let commented := fun (s : List Nat) =>
    if comment.isEmpty then s else s ++ trailingComment l.indent s comment
  if key.isAnnounced then
    unitsOf ['?', ' '] ++ commented spelling ++ 0x0a :: unitsOf (blanks l.indent) ++ [0x3a]
  else commented (spelling ++ [0x3a])

def valueLayout (f : SpellingFormat) (l : Layout) (key value : Node) (keySpelling : List Nat) :
    Layout :=
  let l : Layout := (⟨false, l.indent + f.step, l.taken⟩ : Layout).afterAnchor key.margin
  if !key.isAnnounced && key.margin.after.isEmpty && value.content?.isSome then
    { l with taken := some (keySpelling.length + 1) }
  else l

/-- What comes between a key with its colon and its value. -/
def beforeValue (indent : Nat) (key value : Node) (spelling : List Nat) : List Nat :=
  let m := value.margin
  let feed := 0x0a :: unitsOf (blanks indent)
  if !key.margin.after.isEmpty || m.spaced || !m.before.isEmpty then
    let above := if m.before.isEmpty then []
      else 0x0a :: unitsOf (indentComment indent (markComment m.before))
    (if m.spaced then [0x0a] else []) ++ above ++ feed
  else if !key.isAnnounced && value.isCollection then
    if spelling.contains 0x0a then feed else [0x20]
  else if spelling.isEmpty || spelling.head? == some 0x0a then []
  else [0x20]

mutual

def spelling (f : SpellingFormat) (l : Layout) : Node → List Nat
  | .reference _ name _ => unitsOf ('*' :: name) ++ (if l.inline then [0x20] else [])
  | .text m style content => withAnchor m (textSpelling f (l.afterAnchor m) style content)
  | .list m items =>
    let inner := ⟨l.inline, l.indent + 2 * f.step, (l.afterAnchor m).taken⟩
    withAnchor m (bracketed f l.indent '[' ']' (itemRows f l.indent inner items))
  | .map m entries =>
    let inner := ⟨l.inline, l.indent + f.step, (l.afterAnchor m).taken⟩
    let bare := entries.all fun e => e.2.isNone
    withAnchor m (bracketed f l.indent '\x7b' '\x7d' (entryRows f l.indent inner bare entries))
termination_by structural n => n

def itemRows (f : SpellingFormat) (outer : Nat) (l : Layout) : List Node → List Row
  | [] => []
  | item :: rest =>
    let m := item.margin
    let after := match item with
      | .reference .. => l
      | _ => l.afterAnchor m
    rowOf outer l.indent m (spelling f l item) rest.isEmpty m.after false ::
      itemRows f outer after rest
termination_by structural items => items

/-- The rows of entries, which are `bare` if no key has a value. -/
def entryRows (f : SpellingFormat) (outer : Nat) (l : Layout) (bare : Bool) :
    List (Node × Option Node) → List Row
  | [] => []
  | (key, none) :: rest =>
    let text := spelling f (keyLayout f l bare key) key
    let text :=
      if text.isEmpty then unitsOf ['?']
      else if key.isAnnounced then unitsOf ['?', ' '] ++ text
      else text
    rowOf outer l.indent key.margin text rest.isEmpty key.margin.after false ::
      entryRows f outer l bare rest
  | (key, some value) :: rest =>
    let head := key.withColon l (spelling f (keyLayout f l bare key) key)
    let text := spelling f (valueLayout f l key value head) value
    let between := beforeValue (l.indent + f.step) key value text
    let m := value.margin
    let breaks := !key.margin.after.isEmpty || !m.before.isEmpty
    rowOf outer l.indent key.margin (head ++ between ++ text) rest.isEmpty m.after breaks ::
      entryRows f outer l bare rest
termination_by structural entries => entries

end

/-- The name of a collection, or of an alias for one. The anchor of the collection is no part of
it. -/
def name (n : Node) : Loose :=
  Loose.ofUnits ((n.withMargin .empty).spelling nameFormat ⟨false, 0, none⟩)

end Node

end BenchSettings.Yaml
