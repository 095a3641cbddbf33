/-
BenchSettings.Proofs.Yaml.Entries — the outline of plain lines.

Plain lines are one map by indentation, in which every line is an entry
(`sectionsOf_plainText`). The first key opens the map, and later ones find the
entry before them complete and start another. Between two lines nothing is left
open but the map, so what has been built there is told by the entries so far
(`Builder.atLine`), and a line takes it to the next such place
(`Builder.foldl_lexemes`, `Builder.feed_lineEnd`). At the end of the text the
map is put into the document, with or without a line end behind the last value.

Every token stands in column 0 as far as the outline is concerned, for the
indentation of a token is that of its line.
-/
import BenchSettings.Proofs.Yaml.Tokens
import BenchSettings.Yaml.Outline.Build

namespace BenchSettings.Yaml

/-! ## 1. Entries -/

/-- An entry with a value. What comes behind it starts another entry. -/
def Entry.Complete {α : Type} (e : Entry α) : Prop :=
  ∃ start announced key separator value, e = ⟨start, announced, key, some separator, some value⟩

namespace PlainLine

variable (l : PlainLine) (offset : Nat)

def keyToken : Token := ⟨.text, l.key.chars, offset, 0⟩

def colonToken : Token := ⟨.colon, [':'], (l.keyToken offset).stop, 0⟩

def gapToken : Token := ⟨.gap, [' '], (l.colonToken offset).stop, 0⟩

def valueToken : Token := ⟨.text, l.value.chars, (l.gapToken offset).stop, 0⟩

def feedToken : Token := ⟨.lineEnd, ['\n'], (l.valueToken offset).stop, 0⟩

/-- What comes before the value of an entry. -/
def openEntry : Entry Outline :=
  ⟨[], false, some (.text (l.keyToken offset) none),
    some [l.colonToken offset, l.gapToken offset], none⟩

/-- The entry of a line, with the tokens that follow its value. -/
def entry (after : Option (List Token)) : Entry Outline :=
  { l.openEntry offset with value := some (.text (l.valueToken offset) after) }

theorem complete_entry (after : Option (List Token)) : (l.entry offset after).Complete :=
  ⟨_, _, _, _, _, rfl⟩

end PlainLine

/-- The entries of plain lines, of which the first is at some place. -/
def plainEntries (offset : Nat) : List PlainLine → Option PlainLine → List (Entry Outline)
  | [], last => last.toList.map (·.entry offset none)
  | l :: ended, last =>
    l.entry offset (some [l.feedToken offset]) :: plainEntries (l.feedToken offset).stop ended last

/-! ## 2. Builders between tokens -/

namespace Builder

/-- What has been built where a line starts, with the last entry first. -/
def atLine (offset : Nat) (entries : List (Entry Outline)) : Builder :=
  ⟨true, 0, offset, false, some (.document ⟨0, [], none, none⟩),
    if entries.isEmpty then [] else [.map 0 0 entries], []⟩

/-- What has been built behind a value. -/
def atLineEnd (l : PlainLine) (offset : Nat) (entries : List (Entry Outline)) : Builder :=
  ⟨false, 0, (l.valueToken offset).stop, true, some (.document ⟨0, [], none, none⟩),
    [.text (l.valueToken offset) none, .map 0 0 (l.openEntry offset :: entries)], []⟩

variable {offset : Nat} {entries : List (Entry Outline)}

/-- A line up to its end. -/
theorem foldl_lexemes (l : PlainLine) (complete : ∀ e ∈ entries, e.Complete)
    (first : entries = [] → offset = 0) :
    l.lexemes.foldl feed (atLine offset entries) = atLineEnd l offset entries := by
  cases entries with
  | nil =>
    -- The key is a text of its own, until the colon makes it the key of a map.
    obtain rfl := first rfl
    rfl
  | cons e more =>
    -- The entry before has its value, so the key starts another.
    obtain ⟨start, announced, key, separator, value, rfl⟩ := complete e List.mem_cons_self
    rfl

/-- The end of a line finishes its value. -/
theorem feed_lineEnd (l : PlainLine) (offset : Nat) (entries : List (Entry Outline)) :
    (atLineEnd l offset entries).feed ⟨.lineEnd, ['\n']⟩ =
      atLine (l.feedToken offset).stop (l.entry offset (some [l.feedToken offset]) :: entries) :=
  rfl

/-- The map of complete entries is the document. -/
theorem sections_atLine {e : Entry Outline} (complete : e.Complete) :
    (atLine offset (e :: entries)).popAll.sections =
      [.document ⟨0, [], some (.map 0 0 (e :: entries).reverse), none⟩] := by
  obtain ⟨start, announced, key, separator, value, rfl⟩ := complete
  rfl

/-- A value that no line end follows is finished with the text. -/
theorem sections_atLineEnd (l : PlainLine) (offset : Nat) (entries : List (Entry Outline)) :
    (atLineEnd l offset entries).popAll.sections =
      [.document ⟨0, [], some (.map 0 0 (l.entry offset none :: entries).reverse), none⟩] :=
  rfl

/-- What comes of the lines that are left, behind some entries. -/
theorem sections_plainLexemes (ended : List PlainLine) (last : Option PlainLine)
    (complete : ∀ e ∈ entries, e.Complete) (first : entries = [] → offset = 0)
    (filled : entries ++ plainEntries offset ended last ≠ []) :
    ((plainLexemes ended last).foldl feed (atLine offset entries)).popAll.sections =
      [.document ⟨0, [], some (.map 0 0 (entries.reverse ++ plainEntries offset ended last)),
        none⟩] := by
  induction ended generalizing offset entries with
  | nil =>
    cases last with
    | none =>
      cases entries with
      | nil => exact absurd rfl filled
      | cons e more =>
        have done := @sections_atLine offset more e (complete e List.mem_cons_self)
        simpa [plainLexemes, plainEntries] using done
    | some l =>
      have line := foldl_lexemes l complete first
      simpa [plainLexemes, plainEntries, line] using sections_atLineEnd l offset entries
  | cons l ended ih =>
    have rest := @ih (l.feedToken offset).stop
      (l.entry offset (some [l.feedToken offset]) :: entries)
      (List.forall_mem_cons.2 ⟨l.complete_entry offset _, complete⟩)
      (fun none => absurd none (List.cons_ne_nil _ _)) (List.cons_ne_nil _ _)
    rw [plainLexemes_cons, List.foldl_append, foldl_lexemes l complete first, List.foldl_cons,
      feed_lineEnd, rest, plainEntries, List.reverse_cons, List.append_assoc, List.singleton_append]

end Builder

/-! ## 3. Texts -/

/-- A text of plain lines is one document, a map with an entry for each line. -/
theorem sectionsOf_plainText {ended : List PlainLine} {last : Option PlainLine}
    (filled : ended ++ last.toList ≠ []) :
    sectionsOf (lexemesOf (plainText ended last)) =
      [.document ⟨0, [], some (.map 0 0 (plainEntries 0 ended last)), none⟩] := by
  have entered : plainEntries 0 ended last ≠ [] := by
    cases ended with
    | cons l ended => exact List.cons_ne_nil _ _
    | nil => simpa [plainEntries] using filled
  have content : Builder.initial.feed ⟨.content, []⟩ = Builder.atLine 0 [] := rfl
  rw [sectionsOf, lexemesOf_plainText filled, List.foldl_cons, content,
    Builder.sections_plainLexemes ended last (List.forall_mem_nil _) (fun _ => rfl) entered]
  rfl

end BenchSettings.Yaml
