/-
BenchSettings.Proofs.Yaml.Tokens — the tokens of plain lines.

A line `KEY: value` whose key and value are words (`Word`) is cut into the key,
the colon, a blank, the value and the line end, whatever words these are. No
character of a word plays a part in the notation (`isPlain_of_mem`). A plain
text could go on in the next line, but only if that is indented, which a plain
line is not (`PlainLine.goesOn_eq_false`), so a value ends with its line.

The scanner takes four steps for a line and one for its end
(`PlainLine.scanFrom_append`), and a text of plain lines is scanned line by line
(`lexemesOf_plainText`). The last line need not be ended.
-/
import BenchSettings.Proofs.Text.Classes
import BenchSettings.Proofs.Text.Lines
import BenchSettings.Yaml.Token.Scan

namespace BenchSettings.Yaml

/-! ## 1. Words -/

/-- The characters of words: letters, digits and the underscore. -/
def wordChars : List Char :=
  "ABCDEFGHIJKLMNOPQRSTUVWXYZabcdefghijklmnopqrstuvwxyz0123456789_".toList

theorem mem_wordChars_iff {c : Char} : (c.isAlphanum || c == '_') = true ↔ c ∈ wordChars := by
  refine Text.iff_mem_of_below (fun c => c.isAlphanum || c == '_') 123 ?_ (by decide +kernel)
    (by decide +kernel)
  intro c word
  have upper (h : c.isUpper = true) : c.toNat ≤ 90 := (of_decide_eq_true h).2
  have lower (h : c.isLower = true) : c.toNat ≤ 122 :=
    of_decide_eq_true ((Bool.and_eq_true _ _).mp h).2
  rcases (Bool.or_eq_true _ _).mp word with alphanumeric | underscore
  · rcases (Bool.or_eq_true _ _).mp alphanumeric with letter | digit
    · rcases (Bool.or_eq_true _ _).mp letter with capital | small
      · have := upper capital
        omega
      · have := lower small
        omega
    · have := Text.toNat_of_isDigit digit
      omega
  · rw [eq_of_beq underscore]
    decide

structure Word where
  chars : List Char
  filled : chars ≠ []
  plain : ∀ c ∈ chars, c ∈ wordChars

/-- Whether a character means nothing but itself, wherever it stands in a text. -/
def isPlain (c : Char) : Bool :=
  !isSpace c && (LexemeKind.ofIndicator? c).isNone && !isFlowMark c &&
    !(['#', '!', '&', '*', '|', '>', '%', '@', '-', '.', '"', '\x27', '\x60', '\ufeff'].contains c)

theorem isPlain_of_mem {c : Char} (mem : c ∈ wordChars) : isPlain c = true := by
  have all : wordChars.all isPlain = true := by decide +kernel
  exact List.all_eq_true.1 all c mem

namespace Word

variable (w : Word)

theorem exists_cons : ∃ c rest, w.chars = c :: rest ∧ isPlain c = true ∧
    ∀ d ∈ rest, isPlain d = true := by
  obtain ⟨_ | ⟨c, rest⟩, filled, plain⟩ := w
  · exact absurd rfl filled
  · have each := fun d mem => isPlain_of_mem (plain d mem)
    exact ⟨c, rest, rfl, each c List.mem_cons_self,
      fun d mem => each d (List.mem_cons_of_mem _ mem)⟩

end Word

/-! ## 2. Steps of the scanner -/

section

variable {c : Char} (plain : isPlain c = true)

include plain

theorem isSpace_of_isPlain : isSpace c = false := by
  simp_all [isPlain]

theorem isGap_of_isPlain : isGap c = false := by
  have := isSpace_of_isPlain plain
  simp_all [isSpace]

theorem ofIndicator?_of_isPlain : LexemeKind.ofIndicator? c = none := by
  simp_all [isPlain]

theorem ne_of_isPlain {d : Char} (other : isPlain d = false) : c ≠ d := by
  rintro rfl
  simp_all

theorem ne_of_mem_of_isPlain {ds : List Char} (others : ds.all (fun d => !isPlain d) = true) :
    ∀ d ∈ ds, c ≠ d := fun d mem =>
  ne_of_isPlain plain (by simpa using List.all_eq_true.1 others d mem)

theorem takeGap_of_isPlain (rest : List Char) : takeGap (c :: rest) = ([], c :: rest) := by
  simp [takeGap, isGap_of_isPlain plain, lexemeOf]

theorem lineDone_of_isPlain (rest : List Char) : lineDone (c :: rest) = false := by
  have feed : c ≠ '\n' := ne_of_isPlain plain (by decide)
  have carriage : c ≠ '\r' := ne_of_isPlain plain (by decide)
  unfold lineDone
  split <;> simp_all

theorem scanStream_of_isPlain (s : Scanner) (rest : List Char) :
    scanStream s (c :: rest) = ⟨[⟨.content, []⟩], s, .lineStart, c :: rest⟩ := by
  have mark : c ≠ '\ufeff' := ne_of_isPlain plain (by decide)
  have percent : c ≠ '%' := ne_of_isPlain plain (by decide)
  have remark : c ≠ '#' := ne_of_isPlain plain (by decide)
  simp [scanStream, mark, percent, remark, takeGap_of_isPlain plain,
    lineDone_of_isPlain plain, lexemeOf, Scanned.after]

theorem isMarker_of_isPlain {d : Char} (other : isPlain d = false) (rest : List Char) :
    isMarker d (c :: rest) = false := by
  have apart : c ≠ d := ne_of_isPlain plain other
  simp [isMarker, apart]

/-- A line that is not indented. -/
theorem blankCount_of_isPlain (rest : List Char) : blankCount (c :: rest) = 0 := by
  have blank : c ≠ ' ' := ne_of_isPlain plain (by decide)
  simp [blankCount, blank]

theorem scanLineStart_of_isPlain (s : Scanner) {rest : List Char}
    (next : spaceNext rest = false) :
    scanLineStart s (c :: rest) =
      ⟨[], { s with least := 0, column := 0 }, .indicators, c :: rest⟩ := by
  have blank : c ≠ ' ' := ne_of_isPlain plain (by decide)
  have dashes := isMarker_of_isPlain plain (by decide : isPlain '-' = false) rest
  have dots := isMarker_of_isPlain plain (by decide : isPlain '.' = false) rest
  have least : (if 0 < s.least then 0 else s.least) = 0 := by
    split <;> omega
  simp [scanLineStart, dashes, dots, blankCount_of_isPlain plain, skipBlanks, blank, next, least,
    lexemeOf]

theorem scanIndicator_of_isPlain (s : Scanner) (rest : List Char) :
    scanIndicator s (c :: rest) = ⟨[], s, .line, c :: rest⟩ := by
  simp [scanIndicator, ofIndicator?_of_isPlain plain]

theorem takeProperties_of_isPlain (fuel : Nat) (s : Scanner) (rest : List Char) :
    takeProperties fuel s (c :: rest) = ([], s, c :: rest) := by
  have tag : c ≠ '!' := ne_of_isPlain plain (by decide)
  have anchor : c ≠ '&' := ne_of_isPlain plain (by decide)
  cases fuel with
  | zero => rfl
  | succ fuel =>
    simp [takeProperties, takeProperty?, tag, anchor, ofIndicator?_of_isPlain plain]

/-- A plain text in a line, after what properties and indicators there are. -/
theorem scanInLine_of_properties {fuel : Nat} {s t : Scanner} {cs rest : List Char}
    {properties : List Lexeme} (start : takeGap cs = ([], cs))
    (taken : takeProperties fuel s cs = (properties, t, c :: rest)) :
    scanInLine fuel s cs = (scanPlain t (c :: rest)).after properties := by
  have apart : ∀ d ∈ ['#', '[', ']', '\x7b', '\x7d', '*', '"', '\x27', '|', '>'], c ≠ d :=
    ne_of_mem_of_isPlain plain (by decide)
  simp only [List.forall_mem_cons] at apart
  simp [scanInLine, start, taken, lineDone_of_isPlain plain, apart]

theorem plainLength_of_isPlain (least seen taken : Nat) (rest : List Char) :
    plainLength false least seen taken (c :: rest) =
      plainLength false least (seen + 1) (seen + 1) rest := by
  have colon : c ≠ ':' := ne_of_isPlain plain (by decide)
  have carriage : c ≠ '\r' := ne_of_isPlain plain (by decide)
  have space := isSpace_of_isPlain plain
  rw [plainLength.eq_def]
  split <;> simp_all

end

/-! ## 3. Words and what follows them -/

/-- Whether a text ends at its line end, or has ended. -/
inductive LineEnds : List Char → Prop
  | done : LineEnds []
  | feed {rest : List Char} (unindented : goesOn 1 rest = false) : LineEnds ('\n' :: rest)

namespace Word

variable (w : Word)

theorem isPlain_of_mem {c : Char} (mem : c ∈ w.chars) : isPlain c = true :=
  Yaml.isPlain_of_mem (w.plain c mem)

/-- A plain text takes a word as a whole. -/
theorem plainLength_append (least : Nat) (rest : List Char) :
    plainLength false least 0 0 (w.chars ++ rest) =
      plainLength false least w.chars.length w.chars.length rest := by
  have taken : ∀ (cs : List Char) (n : Nat), (∀ c ∈ cs, isPlain c = true) →
      plainLength false least n n (cs ++ rest) =
        plainLength false least (n + cs.length) (n + cs.length) rest := by
    intro cs
    induction cs with
    | nil => exact fun _ _ => rfl
    | cons c cs ih =>
      intro n plain
      rw [List.cons_append, plainLength_of_isPlain (plain c List.mem_cons_self),
        ih _ fun d mem => plain d (List.mem_cons_of_mem _ mem), List.length_cons,
        Nat.add_right_comm, Nat.add_assoc]
  simpa using taken w.chars 0 fun c mem => w.isPlain_of_mem mem

/-- A word is scanned up to where a text ends. -/
theorem scanPlain_append (least column : Nat) {rest : List Char}
    (ends : plainLength false least w.chars.length w.chars.length rest = w.chars.length) :
    scanPlain ⟨least, column, 0, false⟩ (w.chars ++ rest) =
      ⟨[⟨.text, w.chars⟩], ⟨least, column, 0, false⟩, .line, rest⟩ := by
  have length := (w.plainLength_append least rest).trans ends
  rw [scanPlain]
  simp [length, Scanner.onward]

end Word

/-- One step, and then the others. -/
theorem scanFrom_of_step {fuel : Nat} {s : Scanner} {cs : List Char} {mode : Mode} {next : Scanned}
    (filled : cs ≠ []) (step : scanStep fuel s cs mode = next) :
    scanFrom (fuel + 1) s mode cs =
      next.lexemes ++ scanFrom fuel next.scanner next.mode next.rest := by
  simp [scanFrom, filled, step]

/-! ## 4. Plain lines -/

/-- A line `key: value` of two words. -/
structure PlainLine where
  key : Word
  value : Word

namespace PlainLine

variable (l : PlainLine)

def text : List Char := l.key.chars ++ ':' :: ' ' :: l.value.chars

def lexemes : List Lexeme :=
  [⟨.text, l.key.chars⟩, ⟨.colon, [':']⟩, ⟨.gap, [' ']⟩, ⟨.text, l.value.chars⟩]

theorem four_le_length_text : 4 ≤ l.text.length := by
  have key := List.length_pos_iff.2 l.key.filled
  have value := List.length_pos_iff.2 l.value.filled
  simp only [text, List.length_append, List.length_cons]
  omega

/-- A line starts with a character of its key, and no space comes next. -/
theorem exists_cons (rest : List Char) : ∃ c more, l.text ++ rest = c :: more ∧
    isPlain c = true ∧ spaceNext more = false := by
  obtain ⟨c, others, chars, first, plain⟩ := l.key.exists_cons
  refine ⟨c, others ++ ':' :: ' ' :: l.value.chars ++ rest, by simp [text, chars], first, ?_⟩
  cases others with
  | nil => rfl
  | cons d others => exact isSpace_of_isPlain (plain d List.mem_cons_self)

theorem goesOn_eq_false (rest : List Char) : goesOn 1 (l.text ++ rest) = false := by
  obtain ⟨c, more, chars, plain, -⟩ := l.exists_cons rest
  have blank : c ≠ ' ' := ne_of_isPlain plain (by decide)
  have filled : skipBlanks (c :: more) = c :: more := by simp [skipBlanks, blank]
  rw [chars, goesOn, if_pos Nat.one_pos, blankCount_of_isPlain plain, filled, feedNext,
    lineDone_of_isPlain plain]
  rfl

theorem scanInLine_key (fuel : Nat) (rest : List Char) :
    scanInLine fuel ⟨0, 0, 0, false⟩ (l.text ++ rest) =
      ⟨[⟨.text, l.key.chars⟩], ⟨0, 0, 0, false⟩, .line, ':' :: ' ' :: l.value.chars ++ rest⟩ := by
  have ends : plainLength false 0 l.key.chars.length l.key.chars.length
      (':' :: ' ' :: l.value.chars ++ rest) = l.key.chars.length := rfl
  have key := l.key.scanPlain_append 0 0 ends
  obtain ⟨c, more, chars, plain, -⟩ := l.key.exists_cons
  have line : l.text ++ rest = l.key.chars ++ (':' :: ' ' :: l.value.chars ++ rest) := by
    simp [text]
  rw [line, ← key, chars]
  exact scanInLine_of_properties plain (takeGap_of_isPlain plain _)
    (takeProperties_of_isPlain plain _ _ _)

/-- The colon, the blank and the value are one step. -/
theorem scanInLine_value (fuel : Nat) {rest : List Char} (ends : LineEnds rest) :
    scanInLine (fuel + 1) ⟨0, 0, 0, false⟩ (':' :: ' ' :: l.value.chars ++ rest) =
      ⟨[⟨.colon, [':']⟩, ⟨.gap, [' ']⟩, ⟨.text, l.value.chars⟩], ⟨1, 0, 0, false⟩, .line, rest⟩ := by
  have length : plainLength false 1 l.value.chars.length l.value.chars.length rest =
      l.value.chars.length := by
    cases ends with
    | done => rfl
    | feed unindented => simp [plainLength, isSpace, unindented]
  have value := l.value.scanPlain_append 1 0 length
  obtain ⟨c, more, chars, plain, -⟩ := l.value.exists_cons
  have gap : takeGap (' ' :: c :: (more ++ rest)) = ([⟨.gap, [' ']⟩], c :: (more ++ rest)) := by
    simp [takeGap, isGap_of_isPlain plain, lexemeOf, show isGap ' ' = true by decide]
  have taken : takeProperties (fuel + 1) ⟨0, 0, 0, false⟩ (':' :: ' ' :: l.value.chars ++ rest) =
      ([⟨.colon, [':']⟩, ⟨.gap, [' ']⟩], ⟨1, 0, 0, false⟩, c :: (more ++ rest)) := by
    have colon : takeProperty? ⟨0, 0, 0, false⟩ (':' :: ' ' :: c :: (more ++ rest)) =
        some (⟨.colon, [':']⟩, ⟨1, 0, 0, false⟩, ' ' :: c :: (more ++ rest)) := rfl
    simp only [takeProperties, chars, List.cons_append, colon, gap,
      takeProperties_of_isPlain plain, List.append_nil]
  rw [scanInLine_of_properties plain rfl taken, ← List.cons_append, ← chars, value]
  rfl

/-- Four steps scan a line, and leave its end. -/
theorem scanFrom_append (fuel least : Nat) {rest : List Char} (ends : LineEnds rest) :
    scanFrom (fuel + 5) ⟨least, 0, 0, false⟩ .lineStart (l.text ++ rest) =
      l.lexemes ++ scanFrom (fuel + 1) ⟨1, 0, 0, false⟩ .line rest := by
  obtain ⟨c, more, chars, plain, next⟩ := l.exists_cons rest
  have filled : l.text ++ rest ≠ [] := by simp [chars]
  have start : scanStep (fuel + 4) ⟨least, 0, 0, false⟩ (l.text ++ rest) .lineStart =
      ⟨[], ⟨0, 0, 0, false⟩, .indicators, l.text ++ rest⟩ := by
    rw [chars, scanStep, scanLineStart_of_isPlain plain _ next]
  have indicators : scanStep (fuel + 3) ⟨0, 0, 0, false⟩ (l.text ++ rest) .indicators =
      ⟨[], ⟨0, 0, 0, false⟩, .line, l.text ++ rest⟩ := by
    rw [chars, scanStep, scanIndicator_of_isPlain plain]
  have key : scanStep (fuel + 2) ⟨0, 0, 0, false⟩ (l.text ++ rest) .line = _ :=
    l.scanInLine_key (fuel + 2) rest
  have value : scanStep (fuel + 1) ⟨0, 0, 0, false⟩ (':' :: ' ' :: l.value.chars ++ rest) .line =
      _ := l.scanInLine_value fuel ends
  have filled' : ':' :: ' ' :: l.value.chars ++ rest ≠ [] := by simp
  rw [scanFrom_of_step filled start, scanFrom_of_step filled indicators,
    scanFrom_of_step filled key, scanFrom_of_step filled' value]
  simp [lexemes]

end PlainLine

/-! ## 5. Plain texts -/

/-- A text of plain lines, all of them ended but perhaps the last. -/
def plainText (ended : List PlainLine) (last : Option PlainLine) : List Char :=
  ended.flatMap (fun l => l.text ++ ['\n']) ++ last.toList.flatMap PlainLine.text

def plainLexemes (ended : List PlainLine) (last : Option PlainLine) : List Lexeme :=
  ended.flatMap (fun l => l.lexemes ++ [⟨.lineEnd, ['\n']⟩]) ++
    last.toList.flatMap PlainLine.lexemes

theorem plainText_cons (l : PlainLine) (ended : List PlainLine) (last : Option PlainLine) :
    plainText (l :: ended) last = l.text ++ '\n' :: plainText ended last := by
  simp [plainText]

theorem plainLexemes_cons (l : PlainLine) (ended : List PlainLine) (last : Option PlainLine) :
    plainLexemes (l :: ended) last =
      l.lexemes ++ ⟨.lineEnd, ['\n']⟩ :: plainLexemes ended last := by
  simp [plainLexemes]

/-- A text of plain lines is empty, or starts with one of them. -/
theorem plainText_cases (ended : List PlainLine) (last : Option PlainLine) :
    (ended ++ last.toList = [] ∧ plainText ended last = []) ∨
      ∃ (l : PlainLine) (rest : List Char), plainText ended last = l.text ++ rest := by
  cases ended with
  | cons l ended => exact .inr ⟨l, _, plainText_cons l ended last⟩
  | nil =>
    cases last with
    | none => exact .inl ⟨rfl, rfl⟩
    | some l => exact .inr ⟨l, [], by simp [plainText]⟩

theorem goesOn_plainText (ended : List PlainLine) (last : Option PlainLine) :
    goesOn 1 (plainText ended last) = false := by
  rcases plainText_cases ended last with ⟨-, empty⟩ | ⟨l, rest, chars⟩
  · rw [empty]
    rfl
  · rw [chars, l.goesOn_eq_false]

/-- The lines are scanned one after the other. -/
theorem scanFrom_plainText (ended : List PlainLine) (last : Option PlainLine) (least : Nat)
    {fuel : Nat} (enough : 5 * (ended.length + last.toList.length) < fuel) :
    scanFrom fuel ⟨least, 0, 0, false⟩ .lineStart (plainText ended last) =
      plainLexemes ended last := by
  induction ended generalizing least fuel with
  | nil =>
    obtain ⟨fuel, rfl⟩ : ∃ n, fuel = n + 1 := ⟨fuel - 1, by omega⟩
    cases last with
    | none => rfl
    | some l =>
      simp only [List.length_nil, Option.toList_some, List.length_singleton] at enough
      obtain ⟨fuel, rfl⟩ : ∃ n, fuel = n + 4 := ⟨fuel - 4, by omega⟩
      have line := l.scanFrom_append fuel least .done
      simpa [plainText, plainLexemes, scanFrom] using line
  | cons l ended ih =>
    simp only [List.length_cons] at enough
    obtain ⟨fuel, rfl⟩ : ∃ n, fuel = n + 5 := ⟨fuel - 5, by omega⟩
    have feed : scanStep fuel ⟨1, 0, 0, false⟩ ('\n' :: plainText ended last) .line =
        ⟨[⟨.lineEnd, ['\n']⟩], ⟨1, 0, 0, false⟩, .lineStart, plainText ended last⟩ := by
      cases fuel <;> rfl
    rw [plainText_cons, l.scanFrom_append _ _ (.feed (goesOn_plainText ended last)),
      scanFrom_of_step (List.cons_ne_nil _ _) feed, plainLexemes_cons, ih 1 (by omega)]
    rfl

theorem length_plainText (ended : List PlainLine) (last : Option PlainLine) :
    5 * ended.length + 4 * last.toList.length ≤ (plainText ended last).length := by
  induction ended with
  | nil =>
    cases last with
    | none => simp
    | some l => simpa [plainText] using l.four_le_length_text
  | cons l ended ih =>
    have := l.four_le_length_text
    rw [plainText_cons]
    simp only [List.length_append, List.length_cons]
    omega

/-- A text of plain lines is cut into the tokens of its lines. -/
theorem lexemesOf_plainText {ended : List PlainLine} {last : Option PlainLine}
    (filled : ended ++ last.toList ≠ []) :
    lexemesOf (plainText ended last) = ⟨.content, []⟩ :: plainLexemes ended last := by
  have enough := length_plainText ended last
  obtain ⟨l, rest, chars⟩ := (plainText_cases ended last).resolve_left fun none => filled none.1
  obtain ⟨c, more, start, plain, -⟩ := l.exists_cons rest
  have content : scanStep (4 * (plainText ended last).length + 3) .initial (plainText ended last)
      .stream = ⟨[⟨.content, []⟩], .initial, .lineStart, plainText ended last⟩ := by
    rw [chars, start, scanStep, scanStream_of_isPlain plain]
  have lines : scanFrom (4 * (plainText ended last).length + 3) .initial .lineStart
      (plainText ended last) = plainLexemes ended last :=
    scanFrom_plainText ended last 0 (by omega)
  have entered : plainText ended last ≠ [] := by simp [chars, start]
  rw [lexemesOf, scanFrom_of_step entered content, lines]
  rfl

/-- A text is told by its lines, but for a line feed at its end. -/
theorem exists_plainText {cs : List Char} {lines : List PlainLine}
    (listed : Text.linesOf cs = lines.map PlainLine.text) :
    ∃ ended last, lines = ended ++ last.toList ∧ cs = plainText ended last := by
  obtain ⟨front, back, parts, chars⟩ := Text.exists_linesOf cs
  obtain ⟨ended, rest, rfl, rfl, single⟩ := List.map_eq_append_iff.1 (listed.symm.trans parts)
  obtain ⟨last, rfl⟩ : ∃ last : Option PlainLine, rest = last.toList := by
    cases back with
    | none => exact ⟨none, by simpa using single⟩
    | some line =>
      obtain ⟨l, rfl, -⟩ := List.map_eq_singleton_iff.1 single
      exact ⟨some l, rfl⟩
  refine ⟨ended, last, rfl, ?_⟩
  rw [chars, ← single, plainText, List.flatMap_map, ← List.flatMap_def]

end BenchSettings.Yaml
