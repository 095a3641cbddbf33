/-
BenchSettings.Proofs.Yaml.Nodes — what plain lines denote.

A word says itself (`Word.contentOf?_token`): there are no scalars but texts in
this notation, so `007`, `1e3` and `null` are words like any other. The entries
of plain lines are read one after the other, each as its key and its value
(`mapEntries?_plainEntries`). Two things could refuse an entry. Its key may be
one that came before, and the colon may be too far from the start of the key
(`keyReach`); that is measured from where the entry before ends, which is where
the key starts.

So a text of plain lines denotes the object of their members (`parse_plainText`).
A text without any line is no document.
-/
import BenchSettings.Proofs.Yaml.Entries
import BenchSettings.Yaml.Document

namespace BenchSettings.Yaml

open Text (Loose)

/-! ## 1. Words -/

namespace Word

variable (w : Word)

def loose : Loose := ⟨w.chars.map .char⟩

def text : String := String.ofList w.chars

theorem loose_eq : w.loose = Loose.ofString w.text := by
  rw [loose, Loose.ofString, text, String.toList_ofList]

/-- A text of such characters is a word. -/
theorem exists_text {s : String} (filled : s ≠ "") (plain : ∀ c ∈ s.toList, c ∈ wordChars) :
    ∃ w : Word, w.text = s :=
  ⟨⟨s.toList, by simpa using filled, plain⟩, String.ofList_toList⟩

def node : Node := .text .empty .plain w.loose

theorem unitCount_chars : unitCount w.chars = w.chars.length := by
  have all : wordChars.all (fun c => (Text.charUnits c).length == 1) = true := by decide
  have small : ∀ c ∈ w.chars, (Text.charUnits c).length = 1 := fun c mem =>
    eq_of_beq (List.all_eq_true.1 all c (w.plain c mem))
  rw [unitCount, List.length_flatMap, List.map_congr_left small,
    List.map_const', List.sum_replicate_nat, Nat.mul_one]

theorem not_mem_chars {c : Char} (other : isPlain c = false) : c ∉ w.chars := fun mem =>
  absurd ((w.isPlain_of_mem mem).symm.trans other) (by decide)

/-- A word says itself. -/
theorem contentOf?_token (offset indent : Nat) :
    contentOf? ⟨.text, w.chars, offset, indent⟩ = some (.plain, w.loose) := by
  have unreserved : w.chars.head?.any isReserved = false := by
    obtain ⟨c, rest, chars, plain, -⟩ := w.exists_cons
    have apart : ∀ d ∈ ['\t', ',', '%', '|', '>', '@', '\x60'], c ≠ d :=
      ne_of_mem_of_isPlain plain (by decide)
    simp only [List.forall_mem_cons] at apart
    simp [chars, isReserved, apart]
  have line : foldLines w.chars = w.chars := by
    rw [foldLines, List.splitOn_eq_singleton (w.not_mem_chars (by decide))]
  simp [contentOf?, plainContent?, unreserved, line, loose]

theorem textNode?_token {p : Properties} (bare : p.margin? = some .empty) (quiet : p.comment = [])
    (offset : Nat) {after : List Token} {stop : Nat}
    (ends : remarksOf? true (Token.stop ⟨.text, w.chars, offset, 0⟩) after = some ([], stop)) :
    textNode? p ⟨.text, w.chars, offset, 0⟩ after = some (w.node, stop) := by
  simp [textNode?, bare, ends, w.contentOf?_token, quiet, node, Margin.empty]

end Word

/-! ## 2. Entries -/

namespace Properties

/-- What is known of a node with nothing before it. -/
def bare (place : Nat) : Properties :=
  ⟨place, place, none, false, none, none, none, false, false, []⟩

@[simp] theorem bare_stop (place : Nat) : (bare place).stop = place := rfl

@[simp] theorem bare_mark (place : Nat) : (bare place).mark = none := rfl

@[simp] theorem bare_breakAfter (place : Nat) : (bare place).breakAfter = none := rfl

@[simp] theorem bare_margin? (place : Nat) : (bare place).margin? = some .empty := rfl

end Properties

theorem propertiesOf?_nil (mark : LexemeKind) (next : Next) (place : Nat) :
    propertiesOf? false mark next place 0 true [] = some (.bare place) :=
  rfl

namespace PlainLine

variable (l : PlainLine) (offset : Nat)

/-- What is known of the value of a line, which comes behind a colon and a blank. -/
def valueProperties : Properties :=
  { Properties.bare (l.gapToken offset).stop with mark := some (l.colonToken offset) }

@[simp] theorem valueProperties_mark :
    (l.valueProperties offset).mark = some (l.colonToken offset) := rfl

theorem propertiesOf?_separator (next : Next) (place : Nat) (fresh : Bool) :
    propertiesOf? false .colon next place 0 fresh [l.colonToken offset, l.gapToken offset] =
      some (l.valueProperties offset) :=
  rfl

/-- The colon is as far from the start of the key as the key is long. -/
theorem isFarColon_eq_false (short : l.key.chars.length ≤ keyReach) :
    isFarColon (.bare offset) (l.colonToken offset) = false := by
  have colon : (l.colonToken offset).offset = offset + l.key.chars.length :=
    congrArg (offset + ·) l.key.unitCount_chars
  refine decide_eq_false ?_
  rw [colon]
  exact Nat.not_lt.2 (Nat.add_le_add_left short offset)

theorem partSpansLines_key :
    partSpansLines (some (.text (l.keyToken offset) none)) = false := by
  have oneLine : (l.keyToken offset).source.contains '\n' = false := by
    simpa [keyToken] using l.key.not_mem_chars (by decide)
  rw [partSpansLines, spansLines, oneLine]
  rfl

/-- The key and the value of a line. -/
def nodes : Node × Option Node := (l.key.node, some l.value.node)

/-- An entry is read as the key and the value of its line, if the key is new. -/
theorem mapEntries?_entry {g : Gathered (Node × Option Node)}
    (short : l.key.chars.length ≤ keyReach)
    (fresh : Node.repeatsKey g.entries l.key.node = false)
    {after : Option (List Token)} {stop : Nat}
    (ends : remarksOf? true (l.valueToken g.offset).stop (after.getD []) = some ([], stop))
    (rest : List (Entry Outline)) :
    mapEntries? 0 g (l.entry g.offset after :: rest) = mapEntries? 0 (g.add l.nodes stop) rest := by
  have key : partNode? (.bare g.offset) g.offset [] (some (.text (l.keyToken g.offset) none)) =
      some (l.key.node, (l.keyToken g.offset).stop) :=
    l.key.textNode?_token rfl rfl g.offset rfl
  have value (before : List Token) : partNode? (l.valueProperties g.offset)
      (l.valueProperties g.offset).stop before (some (.text (l.valueToken g.offset) after)) =
        some (l.value.node, stop) :=
    l.value.textNode?_token rfl rfl _ ends
  have inColumn : (Outline.text (l.keyToken g.offset) none).isList = false ∧
      (Outline.text (l.keyToken g.offset) none).indent? = some 0 := ⟨rfl, rfl⟩
  have text : (Outline.text (l.valueToken g.offset) after).isMap = false := rfl
  rw [entry, openEntry, mapEntries?]
  simp [propertiesOf?_nil, inColumn, l.partSpansLines_key, key, propertiesOf?_separator, fresh,
    text, l.isFarColon_eq_false g.offset short, value, nodes]

end PlainLine

/-! ## 3. Maps -/

/-- The keys of lines. -/
def keys (lines : List PlainLine) : List (List Char) := lines.map fun l => l.key.chars

theorem repeatsKey_eq_false {before : List PlainLine} {w : Word} (fresh : w.chars ∉ keys before) :
    Node.repeatsKey (before.map PlainLine.nodes).reverse w.node = false := by
  have apart : ∀ l ∈ before, l.key.loose ≠ w.loose := by
    intro l mem same
    have chars : l.key.chars = w.chars :=
      (List.map_inj_right fun _ _ => Text.Sign.char.inj).1 (Loose.mk.inj same)
    exact fresh (chars ▸ List.mem_map_of_mem mem)
  simpa [Node.repeatsKey, Word.node, Node.content?, PlainLine.nodes] using apart

/-- The entries that plain lines make are read as their keys and values, one after the other. -/
theorem mapEntries?_plainEntries (before ended : List PlainLine) (last : Option PlainLine)
    (offset : Nat) (short : ∀ key ∈ keys (ended ++ last.toList), key.length ≤ keyReach)
    (distinct : (keys (before ++ (ended ++ last.toList))).Nodup) :
    ∃ stop, mapEntries? 0 ⟨offset, none, [], (before.map PlainLine.nodes).reverse⟩
      (plainEntries offset ended last) =
        some ⟨stop, none, [], ((before ++ (ended ++ last.toList)).map PlainLine.nodes).reverse⟩ := by
  have fresh {before after : List PlainLine} {l : PlainLine}
      (distinct : (keys (before ++ l :: after)).Nodup) :
      Node.repeatsKey (before.map PlainLine.nodes).reverse l.key.node = false := by
    refine repeatsKey_eq_false fun mem => ?_
    rw [keys, List.map_append, List.map_cons] at distinct
    exact (List.nodup_append.1 distinct).2.2 _ mem _ List.mem_cons_self rfl
  induction ended generalizing before offset with
  | nil =>
    cases last with
    | none => exact ⟨offset, by simp [plainEntries, mapEntries?]⟩
    | some l =>
      have read := @l.mapEntries?_entry ⟨offset, none, [], (before.map PlainLine.nodes).reverse⟩
        (short _ List.mem_cons_self) (fresh distinct) none (l.valueToken offset).stop rfl []
      refine ⟨(l.valueToken offset).stop, ?_⟩
      simpa [plainEntries, mapEntries?, Gathered.add] using read
  | cons l ended ih =>
    have read := @l.mapEntries?_entry ⟨offset, none, [], (before.map PlainLine.nodes).reverse⟩
      (short _ List.mem_cons_self) (fresh distinct) (some [l.feedToken offset])
      (l.feedToken offset).stop rfl (plainEntries (l.feedToken offset).stop ended last)
    have rest := ih (before ++ [l]) (l.feedToken offset).stop
      (fun key mem => short key (List.mem_cons_of_mem _ mem)) (by simpa using distinct)
    simpa [plainEntries, read, Gathered.add] using rest

/-- The document of plain lines, in which no key comes twice. -/
theorem documentNode?_plainEntries (ended : List PlainLine) (last : Option PlainLine)
    (short : ∀ key ∈ keys (ended ++ last.toList), key.length ≤ keyReach)
    (distinct : (keys (ended ++ last.toList)).Nodup) :
    documentNode? ⟨0, [], some (.map 0 0 (plainEntries 0 ended last)), none⟩ =
      some (.map .empty ((ended ++ last.toList).map PlainLine.nodes), false) := by
  obtain ⟨stop, read⟩ : ∃ stop, mapEntries? 0 (.startingAt 0) (plainEntries 0 ended last) =
      some ⟨stop, none, [], ((ended ++ last.toList).map PlainLine.nodes).reverse⟩ :=
    mapEntries?_plainEntries [] ended last 0 short distinct
  have node : nodeOf? true (.bare 0) (.map 0 0 (plainEntries 0 ended last)) =
      some (.map .empty ((ended ++ last.toList).map PlainLine.nodes), stop) := by
    rw [nodeOf?, Properties.bare_margin?, read]
    simp [Gathered.goesOnAfterEnd, Gathered.ending, Margin.empty]
  simp [documentNode?, propertiesOf?_nil, node, remarksOf?, remarksOf?.go]

/-! ## 4. Values -/

/-- The name and the value of a line. -/
def PlainLine.pair (l : PlainLine) : String × String := (l.key.text, l.value.text)

/-- The member that a line makes. -/
def PlainLine.member (l : PlainLine) : Loose × JsonOf Loose := (l.key.loose, .string l.value.loose)

theorem entryValues_nodes (all : List (Anchor × Node)) (passed : List Passed)
    (lines : List PlainLine) : Node.entryValues all passed (lines.map PlainLine.nodes) =
      .ok (lines.map PlainLine.member, passed) := by
  induction lines with
  | nil => rfl
  | cons l lines ih =>
    have word (w : Word) : Node.value all passed w.node = .ok (.string w.loose, passed) := rfl
    simp only [List.map_cons, PlainLine.nodes, Node.entryValues, word, ih, bind, Except.bind]
    rfl

theorem toJson_nodes (lines : List PlainLine) :
    (Node.map .empty (lines.map PlainLine.nodes)).toJson =
      .ok (Json.ofWritten (lines.map PlainLine.member)) := by
  have members := entryValues_nodes (Node.map .empty (lines.map PlainLine.nodes)).anchors [] lines
  have unpassed : Node.pass .empty (.object []) [] = [] := rfl
  rw [Node.toJson, Node.value, unpassed, members]
  rfl

/-- A text of plain lines denotes the object of their members, if no key comes twice. Without any
line there is no document. -/
theorem parse_plainText (ended : List PlainLine) (last : Option PlainLine)
    (short : ∀ key ∈ keys (ended ++ last.toList), key.length ≤ keyReach)
    (distinct : (keys (ended ++ last.toList)).Nodup) :
    parse (plainText ended last) =
      .ok (if ended ++ last.toList = [] then none
        else some (Json.ofWritten ((ended ++ last.toList).map PlainLine.member))) := by
  by_cases blank : ended ++ last.toList = []
  · obtain ⟨rfl, unended⟩ := List.append_eq_nil_iff.1 blank
    obtain rfl : last = none := by simpa using unended
    rfl
  · have document : nodeOfText? (plainText ended last) =
        some (some (.map .empty ((ended ++ last.toList).map PlainLine.nodes))) := by
      rw [nodeOfText?, sectionsOf_plainText blank]
      simp [Reading.take?, documentNode?_plainEntries ended last short distinct]
    simp only [parse, document, toJson_nodes, if_neg blank]

end BenchSettings.Yaml
