/-
BenchSettings.Yaml.Token.Scan — a text cut into its lexemes.

Cutting goes step by step, and each step takes what stands at one place: at the
start of a line outside of any document, at the start of a line inside, among
the indicators after its indentation, in the line, or between brackets
(`Mode`). What a step has to know of the ones before it is little (`Scanner`):
the indentation that a text needs to go on, the column, how many brackets are
open, and whether a colon may follow without a space.

`lexemesOf` cuts a whole text. Nothing is left out: the lexemes spell the text.
-/
import BenchSettings.Yaml.Token.Extent

namespace BenchSettings.Yaml

/-! ## 1. States -/

/-- Where a step starts. -/
inductive Mode where
  /-- At the start of a line, outside of a document. -/
  | stream
  /-- At the start of a line, inside. -/
  | lineStart
  /-- After indentation and indicators. -/
  | indicators
  /-- In a line. -/
  | line
  /-- Between brackets. -/
  | brackets
  deriving DecidableEq, Repr

/-- What is known of the steps before. -/
structure Scanner where
  /-- The indentation that a text needs to go on. -/
  least : Nat
  column : Nat
  /-- How many brackets are open. -/
  depth : Nat
  /-- Whether a colon may follow without a space. -/
  afterKey : Bool
  deriving DecidableEq, Repr

def Scanner.initial : Scanner := ⟨0, 0, 0, false⟩

/-- What a step gives. -/
structure Scanned where
  lexemes : List Lexeme
  scanner : Scanner
  mode : Mode
  rest : List Char

/-- Puts lexemes before the others. -/
def Scanned.after (before : List Lexeme) (s : Scanned) : Scanned :=
  { s with lexemes := before ++ s.lexemes }

def takeGap (cs : List Char) : List Lexeme × List Char :=
  (lexemeOf .gap (cs.takeWhile isGap), cs.dropWhile isGap)

/-- Takes a line end, and goes on at the start of the next line. -/
def scanFeed (s : Scanner) (mode : Mode) (cs : List Char) : Scanned :=
  let (feed, rest) := splitFeed cs
  ⟨lexemeOf .lineEnd feed, s, mode, rest⟩

/-- Takes what is left of a line with its end. -/
def scanComment (s : Scanner) (mode : Mode) (cs : List Char) : Scanned :=
  let (comment, rest) := splitLine cs
  (scanFeed s mode rest).after (lexemeOf .comment comment)

/-! ## 2. Outside of a document, and at the start of a line -/

/-- Splits a line before the blank that a comment follows. -/
def splitRemark : List Char → List Char × List Char
  | [] => ([], [])
  | c :: rest =>
    if isGap c ∧ rest.head? = some '#' then ([], c :: rest)
    else
      let (line, remark) := splitRemark rest
      (c :: line, remark)

/-- Splits the line of a directive before the blanks and the comment at its end. -/
def splitDirective (line : List Char) : List Char × List Char :=
  let (directive, remark) := splitRemark line
  let ends := (directive.reverse.takeWhile isGap).reverse
  (directive.take (directive.length - ends.length), ends ++ remark)

/-- A step outside of a document. A line may start with a byte order mark, wherever it stands. -/
def scanStream (s : Scanner) (cs : List Char) : Scanned :=
  let mark := cs.takeWhile (· == '\ufeff') |>.take 1
  let cs := cs.drop mark.length
  Scanned.after (lexemeOf .byteOrderMark mark) <|
    if cs.head? = some '%' then
      let (line, after) := splitLine cs
      let (directive, rest) := splitDirective line
      let (gap, rest) := takeGap rest
      ⟨lexemeOf .directive directive ++ gap ++ lexemeOf .comment rest, s, .stream, after⟩
    else
      let (gap, rest) := takeGap cs
      if lineDone rest || rest.head? = some '#' then (scanComment s .stream rest).after gap
      else ⟨[⟨.content, []⟩], s, .lineStart, cs⟩

/-- A step at the start of a line inside a document: a marker, or indentation. -/
def scanLineStart (s : Scanner) (cs : List Char) : Scanned :=
  if isMarker '-' cs then
    ⟨[⟨.dashes, cs.take 3⟩], { s with least := 0, column := 0 }, .line, cs.drop 3⟩
  else if isMarker '.' cs then
    ⟨[⟨.dots, cs.take 3⟩], { s with least := 0, column := 0 }, .stream, cs.drop 3⟩
  else
    let column := blankCount cs
    let rest := skipBlanks cs
    let least := if column < s.least && !spaceNext (rest.drop 1) then column else s.least
    ⟨lexemeOf .gap (cs.takeWhile (· == ' ')), { s with least := least, column := column },
      .indicators, rest⟩

/-- A step among the indicators at the start of a line. What they announce has to be indented
further than they are. -/
def scanIndicator (s : Scanner) (cs : List Char) : Scanned :=
  match cs with
  | [] => ⟨[], s, .line, []⟩
  | c :: rest =>
    match LexemeKind.ofIndicator? c with
    | some kind =>
      if spaceNext rest then
        let (gap, after) := takeGap rest
        ⟨⟨kind, [c]⟩ :: gap,
          { s with least := s.column + 1,
                   column := s.column + 1 + (rest.length - after.length) },
          .indicators, after⟩
      else ⟨[], s, .line, cs⟩
    | none => ⟨[], s, .line, cs⟩

/-! ## 3. Properties and indicators in a line -/

def isTagChar (c : Char) : Bool := c.isAlphanum || "-#;/?:@&=+$_.!~*'()".toList.contains c

/-- Splits off the characters of a tag, where two hex digits after a percent sign count as one. -/
def splitTagChars : List Char → List Char × List Char
  | '%' :: a :: b :: rest =>
    if isHexDigit a && isHexDigit b then
      let (tag, after) := splitTagChars rest
      ('%' :: a :: b :: tag, after)
    else ([], '%' :: a :: b :: rest)
  | c :: rest =>
    if isTagChar c then
      let (tag, after) := splitTagChars rest
      (c :: tag, after)
    else ([], c :: rest)
  | [] => ([], [])
where
  /-- A hex digit of either case. -/
  isHexDigit (c : Char) : Bool := "0123456789ABCDEFabcdef".toList.contains c

/-- Splits off a tag, which starts with an exclamation mark. -/
def splitTag (cs : List Char) : List Char × List Char :=
  match cs with
  | '!' :: '<' :: rest =>
    let inside := fun c => !isSpace c && c != '>'
    match rest.dropWhile inside with
    | '>' :: after => ('!' :: '<' :: rest.takeWhile inside ++ ['>'], after)
    | after => ('!' :: '<' :: rest.takeWhile inside, after)
  | '!' :: rest =>
    let (tag, after) := splitTagChars rest
    ('!' :: tag, after)
  | _ => ([], cs)

/-- What an indicator in a line leaves behind. -/
def Scanner.pastIndicator (s : Scanner) : Scanner :=
  if s.depth = 0 then { s with least := s.column + 1 } else { s with afterKey := false }

def takeProperty? (s : Scanner) : List Char → Option (Lexeme × Scanner × List Char)
  | [] => none
  | c :: rest =>
    if c = '!' then
      let (tag, after) := splitTag (c :: rest)
      some (⟨.tag, tag⟩, s, after)
    else if c = '&' then
      some (⟨.anchor, c :: rest.takeWhile isAnchorChar⟩, s, rest.dropWhile isAnchorChar)
    else
      match LexemeKind.ofIndicator? c with
      | some kind =>
        if spaceNext rest || (0 < s.depth && flowMarkNext rest) then
          some (⟨kind, [c]⟩, s.pastIndicator, rest)
        else none
      | none => none

/-- Takes properties and indicators with the gaps after them. -/
def takeProperties : Nat → Scanner → List Char → List Lexeme × Scanner × List Char
  | 0, s, cs => ([], s, cs)
  | fuel + 1, s, cs =>
    match takeProperty? s cs with
    | none => ([], s, cs)
    | some (lexeme, s, rest) =>
      let (gap, rest) := takeGap rest
      let (more, s, rest) := takeProperties fuel s rest
      (lexeme :: gap ++ more, s, rest)

/-! ## 4. Texts -/

/-- Where a text leads on to. -/
def Scanner.onward (s : Scanner) : Mode := if s.depth = 0 then .line else .brackets

def scanPlain (s : Scanner) (cs : List Char) : Scanned :=
  let n := plainLength (decide (0 < s.depth)) s.least 0 0 cs
  ⟨[⟨.text, cs.take n⟩], s, s.onward, cs.drop n⟩

def scanQuoted (s : Scanner) (kind : LexemeKind) (quote : Char) (rest : List Char) : Scanned :=
  let n := quotedLength quote s.least rest
  ⟨[⟨kind, quote :: rest.take n⟩], s, s.onward, rest.drop n⟩

def scanReference (s : Scanner) (cs : List Char) : Scanned :=
  ⟨[⟨.reference, cs.takeWhile isAnchorChar⟩], s, s.onward, cs.dropWhile isAnchorChar⟩

/-- Takes the header of a block, the rest of its line, and the lines of the block. -/
def scanBlock (s : Scanner) (cs : List Char) : Scanned :=
  let isSign := fun c => !isSpace c && c != '#'
  let (gap, rest) := takeGap (cs.dropWhile isSign)
  let (remark, rest) := splitLine rest
  let (feed, rest) := splitFeed rest
  let (block, least, rest) := splitBlock (.ofSigns (cs.drop 1)) s.least rest
  ⟨⟨.header, cs.takeWhile isSign⟩ :: gap ++ lexemeOf (.ofSource remark) remark ++
      lexemeOf .lineEnd feed ++ [⟨.text, block⟩],
    { s with least := least }, .lineStart, rest⟩

/-! ## 5. In a line -/

def scanInLine (fuel : Nat) (s : Scanner) (cs : List Char) : Scanned :=
  let (gap, cs) := takeGap cs
  let (properties, s, cs) := takeProperties fuel s cs
  Scanned.after (gap ++ properties) <|
    if lineDone cs then scanFeed s .lineStart cs
    else
      match cs with
      | [] => ⟨[], s, .lineStart, []⟩
      | c :: rest =>
        if c = '#' then scanComment s .lineStart cs
        else if c = '[' ∨ c = '\x7b' then
          ⟨[⟨.ofFlowMark c, [c]⟩], { s with depth := 1, afterKey := false }, .brackets, rest⟩
        else if c = ']' ∨ c = '\x7d' then ⟨[⟨.ofFlowMark c, [c]⟩], s, .line, rest⟩
        else if c = '*' then scanReference s cs
        else if c = '"' then scanQuoted s .double c rest
        else if c = '\x27' then scanQuoted s .single c rest
        else if c = '|' ∨ c = '>' then scanBlock s cs
        else scanPlain s cs

/-! ## 6. Between brackets -/

/-- Goes on to the next token inside brackets. Also gives the indentation of the line that it stands
in, if that is a new one. -/
def takeFlowGap : Nat → List Char → List Lexeme × Option Nat × List Char
  | 0, cs => ([], none, cs)
  | fuel + 1, cs =>
    let (feed, rest) := splitFeed cs
    let blanks := if feed = [] then [] else rest.takeWhile (· == ' ')
    let (gap, rest) := takeGap (rest.drop blanks.length)
    let taken := lexemeOf .lineEnd feed ++ lexemeOf .gap blanks ++ gap
    if taken = [] then ([], none, cs)
    else
      let (more, column, rest) := takeFlowGap fuel rest
      (taken ++ more, column.or (if feed = [] then none else some blanks.length), rest)

/-- Takes commas with the gaps after them. -/
def takeCommas : Nat → List Char → List Lexeme × List Char
  | 0, cs => ([], cs)
  | fuel + 1, cs =>
    if cs.head? = some ',' then
      let (gap, rest) := takeGap (cs.drop 1)
      let (more, rest) := takeCommas fuel rest
      (⟨.comma, [',']⟩ :: gap ++ more, rest)
    else ([], cs)

/-- Whether a line with some indentation cannot go on with what the brackets hold. Only the last
closing bracket may stand one blank further left. -/
def isTorn (s : Scanner) (column : Nat) (cs : List Char) : Bool :=
  let left := column < s.least && cs.head? != some '#'
  let border := column == 0 && (isMarker '-' cs || isMarker '.' cs)
  let closes := column + 1 == s.least && s.depth == 1 &&
    (cs.head? == some ']' || cs.head? == some '\x7d')
  (left || border) && !closes

def scanFlowToken (s : Scanner) (cs : List Char) : Scanned :=
  match cs with
  | [] => ⟨[], s, .brackets, []⟩
  | c :: rest =>
    if lineDone cs then ⟨[], s, .brackets, cs⟩
    else if c = '#' then
      let (comment, after) := splitLine cs
      ⟨[⟨.comment, comment⟩], s, .brackets, after⟩
    else if c = '[' ∨ c = '\x7b' then
      ⟨[⟨.ofFlowMark c, [c]⟩], { s with depth := s.depth + 1, afterKey := false }, .brackets, rest⟩
    else if c = ']' ∨ c = '\x7d' then
      let s := { s with depth := s.depth - 1, afterKey := true }
      ⟨[⟨.ofFlowMark c, [c]⟩], s, s.onward, rest⟩
    else if c = '*' then scanReference s cs
    else if c = '"' then scanQuoted { s with afterKey := true } .double c rest
    else if c = '\x27' then scanQuoted { s with afterKey := true } .single c rest
    else if c = ':' ∧ s.afterKey = true then
      let (gap, rest) := takeGap rest
      ⟨⟨.colon, [c]⟩ :: gap, { s with afterKey := false }, .brackets, rest⟩
    else scanPlain { s with afterKey := false } cs

def scanInBrackets (fuel : Nat) (s : Scanner) (cs : List Char) : Scanned :=
  let (gap, column, cs) := takeFlowGap fuel cs
  let s := { s with column := column.getD s.column }
  Scanned.after gap <|
    if column.any fun column => isTorn s column cs then
      ⟨[⟨.torn, []⟩], { s with depth := 0 }, .lineStart, cs⟩
    else
      let (commas, cs) := takeCommas fuel cs
      let s := { s with afterKey := s.afterKey && commas.isEmpty }
      let (properties, s, cs) := takeProperties fuel s cs
      (scanFlowToken s cs).after (commas ++ properties)

/-! ## 7. All steps -/

def scanStep (fuel : Nat) (s : Scanner) (cs : List Char) : Mode → Scanned
  | .stream => scanStream s cs
  | .lineStart => scanLineStart s cs
  | .indicators => scanIndicator s cs
  | .line => scanInLine fuel s cs
  | .brackets => scanInBrackets fuel s cs

/-- The lexemes of what is left of a text. -/
def scanFrom : Nat → Scanner → Mode → List Char → List Lexeme
  | 0, _, _, _ => []
  | fuel + 1, s, mode, cs =>
    if cs.isEmpty then []
    else
      let step := scanStep fuel s cs mode
      step.lexemes ++ scanFrom fuel step.scanner step.mode step.rest

/-- The lexemes of a text. At least every fourth step takes a character. -/
def lexemesOf (text : List Char) : List Lexeme :=
  scanFrom (4 * text.length + 4) .initial .stream text

end BenchSettings.Yaml
