/-
BenchSettings.Proofs.EnvFile.Unquoted — variables written without quotes.

A file of lines `NAME: value` sets each name to its value as it is written,
leading zeros, exponents and all (`load_unquoted`). Only the words `true` and
`false` are changed, to `1` and `0`, and not by the notation, to which they are
words like any other, but by what an env file makes of texts (`settingText`).

The way is that of a file that was saved (`load_saved`), with plain lines in
place of canonical text: the text is one of plain lines (`exists_plainText`),
which denotes the object of their members (`parse_plainText`); this lists them
in their order because no name of a variable is an index; and names that are
distinct are set one by one.
-/
import BenchSettings.Proofs.EnvFile.Faults
import BenchSettings.Proofs.Yaml.Nodes
import Mathlib.Data.Set.List

namespace BenchSettings

open Text (Loose)

namespace EnvFile

open Yaml (PlainLine Word)

/-! ## 1. What plain lines set -/

namespace VariableName

variable {name : String} (named : VariableName name)

include named

theorem exists_toList : ∃ c rest, name.toList = c :: rest ∧ c ∈ capitals ∧
    ∀ d ∈ rest, d ∈ nameChars := by
  obtain ⟨c, rest, same, start, parts⟩ := named
  rw [Json.ofString_injective same, String.toList_ofList]
  exact ⟨c, rest, rfl, start, parts⟩

/-- The name of a variable is no index. -/
theorem not_indexed : ¬Json.Indexed name := by
  rintro ⟨n, -, same⟩
  obtain ⟨c, rest, chars, start, -⟩ := named.exists_toList
  have digits : c :: rest = Text.decimalDigits n := by
    simpa [Text.decimal, chars] using congrArg String.toList (Json.ofString_injective same)
  have digit : c.isDigit = true := Text.isDigit_of_mem_decimalDigits (digits ▸ List.mem_cons_self)
  have others : capitals.all (fun c => !c.isDigit) = true := by decide
  have other := List.all_eq_true.1 others c start
  rw [digit] at other
  cases other

/-- The name of a variable can be a word. -/
theorem exists_word : ∃ w : Word, w.text = name := by
  have all : nameChars.all (Yaml.wordChars.contains ·) = true := by decide
  have wordPart : ∀ d ∈ nameChars, d ∈ Yaml.wordChars := by simpa using all
  obtain ⟨c, rest, chars, start, parts⟩ := named.exists_toList
  refine Word.exists_text (fun none => by simp [none] at chars) ?_
  rw [chars]
  exact List.forall_mem_cons.2
    ⟨wordPart c (List.mem_append_left _ start), fun d mem => wordPart d (parts d mem)⟩

end VariableName

section

variable {lines : List PlainLine} (names : ∀ l ∈ lines, VariableName l.key.text)

include names

/-- Members that are named as variables are listed as they are written. -/
theorem arrange_members :
    Json.arrange (lines.map PlainLine.member) = lines.map PlainLine.member := by
  have other : ∀ m ∈ lines.map PlainLine.member, (Json.index? m.1).isNone = true := by
    refine List.forall_mem_map.2 fun l mem => ?_
    rw [Json.isNone_index?_eq, decide_eq_true_eq, PlainLine.member, l.key.loose_eq]
    exact (names l mem).not_indexed
  have none : (lines.map PlainLine.member).filter (fun m => (Json.index? m.1).isSome) = [] :=
    List.filter_eq_nil_iff.2 fun m mem => by simp [Option.isNone_iff_eq_none.1 (other m mem)]
  rw [Json.arrange, Json.indexed, none, List.mergeSort_nil, List.nil_append, Json.unindexed,
    List.filter_eq_self.2 other]

/-- Plain lines that name different variables set each of them, in their order. -/
theorem environmentOf_members (distinct : (lines.map fun l => l.key.text).Nodup) :
    ∃ env, environmentOf (Json.ofWritten (lines.map PlainLine.member)) = .ok env ∧
      env.entries = lines.map fun l => (l.key.text, some (settledText l.value.text)) := by
  have distinct' : (Named.names (lines.map PlainLine.member)).Nodup := by
    have loose : Named.names (lines.map PlainLine.member) =
        (lines.map fun l => l.key.text).map Loose.ofString := by
      simp [Named.names, PlainLine.member, Word.loose_eq]
    rw [loose]
    exact distinct.map fun _ _ => Json.ofString_injective
  have fit : ∀ m ∈ lines.map PlainLine.member,
      isVariableName m.1.shown = true ∧ valueFaults m.2 = [] := by
    refine List.forall_mem_map.2 fun l mem => ⟨isVariableName_iff.2 ?_, rfl⟩
    rw [PlainLine.member, l.key.loose_eq]
    exact names l mem
  rw [Json.ofWritten_of_arranged distinct' (arrange_members names)]
  refine ⟨_, environmentOf_object_eq_ok_iff.2 ⟨fit, rfl⟩, ?_⟩
  rw [Environment.entries_ofList, List.map_map, Named.ofPairs_of_nodup]
  · refine List.map_congr_left fun l _ => ?_
    simp [PlainLine.member, valueText, shown_settingText, Word.loose_eq, Loose.shown_ofString]
  · simpa [Named.names, Function.comp_def, PlainLine.member, Word.loose_eq, Loose.shown_ofString]
      using distinct

/-- A file of plain lines that name different variables sets each of them. -/
theorem load_plainLines {files : Files} {path text : String} (yaml : isJsonPath path = false)
    (written : files path = .ok (Text.Utf8.encode text.toList))
    (listed : Text.linesOf text.toList = lines.map PlainLine.text)
    (short : ∀ l ∈ lines, l.key.chars.length ≤ Yaml.keyReach)
    (distinct : (lines.map fun l => l.key.text).Nodup) :
    ∃ env, load files path = .ok env ∧
      env.entries = lines.map fun l => (l.key.text, some (settledText l.value.text)) := by
  obtain ⟨env, set, entries⟩ := environmentOf_members names distinct
  obtain ⟨ended, last, rfl, chars⟩ := Yaml.exists_plainText listed
  have found : files.text path = .ok text.toList := by
    rw [Files.text, written, Except.map, Text.Utf8.decode_encode]
  have distinct' : (Yaml.keys (ended ++ last.toList)).Nodup := by
    refine List.Nodup.of_map String.ofList ?_
    rw [Yaml.keys, List.map_map]
    exact distinct
  have parsed := Yaml.parse_plainText ended last (List.forall_mem_map.2 short) distinct'
  by_cases blank : ended ++ last.toList = []
  · rw [if_pos blank, ← chars] at parsed
    rw [blank]
    refine ⟨.empty, load_eq_ok_iff.2 ⟨_, .null, found, ?_, rfl⟩, rfl⟩
    simp [valueOf, yaml, parsed]
  · rw [if_neg blank, ← chars] at parsed
    refine ⟨env, load_eq_ok_iff.2 ⟨_, _, found, ?_, set⟩, entries⟩
    simp [valueOf, yaml, parsed]

end

/-! ## 2. Files of names and values -/

/-- Names and values that are words are those of plain lines. -/
theorem exists_lines {entries : List (String × String)}
    (names : ∀ e ∈ entries, VariableName e.1)
    (values : ∀ e ∈ entries, e.2 ≠ "" ∧ e.2.toList.all Char.isAlphanum = true) :
    ∃ lines : List PlainLine, lines.map PlainLine.pair = entries := by
  have all : ∀ e ∈ entries, ∃ l : PlainLine, l.pair = e := by
    intro e mem
    obtain ⟨key, name⟩ := (names e mem).exists_word
    obtain ⟨value, text⟩ : ∃ w : Word, w.text = e.2 := by
      refine Word.exists_text (values e mem).1 fun c there => ?_
      have word := List.all_eq_true.1 (values e mem).2 c there
      exact Yaml.mem_wordChars_iff.1 (by rw [word, Bool.true_or])
    exact ⟨⟨key, value⟩, Prod.ext name text⟩
  have range : entries ∈ Set.range (List.map PlainLine.pair) := by
    rw [Set.range_list_map]
    exact all
  exact range

/-- The lines of a file, as they are put together from a name and a value. -/
theorem linesOf_of_lines {text : String} {lines : List PlainLine}
    (listed : Text.lines text = (lines.map PlainLine.pair).map fun (name, value) =>
      name ++ ": " ++ value) :
    Text.linesOf text.toList = lines.map PlainLine.text := by
  have line : PlainLine.text = fun l => l.key.chars ++ ':' :: ' ' :: l.value.chars := rfl
  have chars := congrArg (List.map String.toList) listed
  simpa [Text.lines, Function.comp_def, PlainLine.pair, Word.text, line] using chars

/-- Distinct names that are set are listed as they came. -/
theorem toList_ofList {entries : List (String × String)}
    (distinct : (entries.map Prod.fst).Nodup) :
    (Environment.ofList (entries.map fun (name, value) => (name, some value))).toList = entries := by
  have names : (Named.names (entries.map fun (name, value) => (name, some value))).Nodup := by
    simpa [Named.names, Function.comp_def] using distinct
  rw [Environment.toList, Environment.entries_ofList, Named.ofPairs_of_nodup names]
  simp [List.filterMap_map]

/-- A file, not of the other format, with a line for each of some distinct variables: the name, a
colon, a blank and a value of letters and digits, ended or not behind the last. It sets just these
names to just these texts, but for the two truth values, which it sets to `1` and `0`. Without truth
values in it, it configures a run as the environment of these names and texts does. The colon of a
name is found up to 1024 characters. -/
theorem load_unquoted {files : Files} {path text : String} {entries : List (String × String)}
    (yaml : isJsonPath path = false)
    (written : files path = .ok (Text.Utf8.encode text.toList))
    (listed : Text.lines text = entries.map fun (name, value) => name ++ ": " ++ value)
    (names : ∀ e ∈ entries, VariableName e.1 ∧ e.1.length ≤ 1024)
    (values : ∀ e ∈ entries, e.2 ≠ "" ∧ e.2.toList.all Char.isAlphanum = true)
    (distinct : (entries.map Prod.fst).Nodup) :
    (∃ env, load files path = .ok env ∧
      env.entries = entries.map fun (name, value) =>
        (name, some (if value = "true" then "1" else if value = "false" then "0" else value))) ∧
    ((∀ e ∈ entries, e.2 ≠ "true" ∧ e.2 ≠ "false") →
      ∃ r, resolve files .empty (some path) = .ok r ∧
        r.result = (Environment.ofList
          (entries.map fun (name, value) => (name, some value))).load) := by
  obtain ⟨lines, rfl⟩ := exists_lines (fun e mem => (names e mem).1) values
  have named : ∀ l ∈ lines, VariableName l.key.text := fun l mem =>
    (names _ (List.mem_map_of_mem mem)).1
  have short : ∀ l ∈ lines, l.key.chars.length ≤ Yaml.keyReach := by
    intro l mem
    simpa [PlainLine.pair, Word.text, Yaml.keyReach] using (names _ (List.mem_map_of_mem mem)).2
  have distinct' : (lines.map fun l => l.key.text).Nodup := by
    simpa [Function.comp_def, PlainLine.pair] using distinct
  obtain ⟨env, loads, entries⟩ :=
    load_plainLines named yaml written (linesOf_of_lines listed) short distinct'
  have set : env.entries = (lines.map PlainLine.pair).map fun (name, value) =>
      (name, some (settledText value)) := by
    rw [entries, List.map_map]
    rfl
  refine ⟨⟨env, loads, set⟩, fun texts => ?_⟩
  have same := toList_ofList distinct
  refine ⟨.ofEnvironment (.merge [env, .empty]), by rw [resolve, loads, Except.map], ?_⟩
  refine (seenAs_of_settled (.of_eq ?_) ?_).load_eq
  · rw [set, settled, same]
  · rwa [same]

/-- A way to read files that knows one text. -/
def writtenAs (path text : String) : Files := fun asked =>
  if asked = path then .ok (Text.Utf8.encode text.toList) else .error (.notFound asked)

/-- Values that other schemas of the notation take for numbers and for nothing. -/
def numerals : List (String × String) :=
  [("NUM_WARMUPS", "010"), ("BYTE_OFFSET", "0x1F"), ("NOTE_2", "null"), ("NUM_ITERATIONS", "1e3")]

/-- The last line is not ended. -/
def numeralsText : String :=
  "NUM_WARMUPS: 010\nBYTE_OFFSET: 0x1F\nNOTE_2: null\nNUM_ITERATIONS: 1e3"

/-- Two truth values, and one that is none as it is written. -/
def truthValues : List (String × String) :=
  [("USE_MEMSET", "true"), ("SHOW_ADDR", "TRUE"), ("USE_HIP_CALL", "false")]

def truthValuesText : String := "USE_MEMSET: true\nSHOW_ADDR: TRUE\nUSE_HIP_CALL: false\n"

theorem load_unquoted_numerals :
    (∃ env, load (writtenAs "vars.yml" numeralsText) "vars.yml" = .ok env ∧
      env.entries = [("NUM_WARMUPS", some "010"), ("BYTE_OFFSET", some "0x1F"),
        ("NOTE_2", some "null"), ("NUM_ITERATIONS", some "1e3")]) ∧
    (∃ r, resolve (writtenAs "vars.yml" numeralsText) .empty (some "vars.yml") = .ok r ∧
      r.result = (Environment.ofList
        (numerals.map fun (name, value) => (name, some value))).load) ∧
    ∃ env, load (writtenAs "vars.yml" truthValuesText) "vars.yml" = .ok env ∧
      env.entries = [("USE_MEMSET", some "1"), ("SHOW_ADDR", some "TRUE"),
        ("USE_HIP_CALL", some "0")] := by
  have yaml : isJsonPath "vars.yml" = false := by decide +kernel
  have written (text : String) : writtenAs "vars.yml" text "vars.yml" =
      .ok (Text.Utf8.encode text.toList) := if_pos rfl
  have ofNumerals := @load_unquoted (writtenAs "vars.yml" numeralsText) "vars.yml"
    numeralsText numerals yaml (written _) (by decide +kernel) (by decide +kernel)
    (by decide +kernel) (by decide +kernel)
  have ofTruthValues := @load_unquoted (writtenAs "vars.yml" truthValuesText) "vars.yml"
    truthValuesText truthValues yaml (written _) (by decide +kernel) (by decide +kernel)
    (by decide +kernel) (by decide +kernel)
  obtain ⟨⟨env, loads, entries⟩, resolves⟩ := ofNumerals
  obtain ⟨⟨other, loads', entries'⟩, -⟩ := ofTruthValues
  exact ⟨⟨env, loads, entries.trans (by decide +kernel)⟩, resolves (by decide +kernel),
    other, loads', entries'.trans (by decide +kernel)⟩

end EnvFile

end BenchSettings
