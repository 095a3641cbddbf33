/-
BenchSettings.Proofs.EnvFile.Numbers — numbers that an env file sets.

A JSON file can set a variable to a number, and what the loader uses is then to
be that number, cut off to an integer and clamped to the range. But an
environment holds texts. The number is written down when the file is loaded and
read again, leniently, when the setting is, and by `Number.ReadBack` that keeps
the numbers that are written out and no others.

`used_of_numbers` follows a number from the file to the setting. The reader
gives a number that a double can hold, whatever its literal was, and of the
members of a map only one can set the variable, although names that differ may
be shown alike (`Loose.eq_ofString_of_shown`).
-/
import BenchSettings.Proofs.Command.Layers
import BenchSettings.Proofs.EnvFile.Reload
import BenchSettings.Proofs.Json.Denoted
import BenchSettings.Proofs.Setting.NumberText

namespace BenchSettings

open Text (Loose)

namespace EnvFile

/-! ## 1. The member that sets a variable -/

/-- What a map sets a variable to is the text of the member that is named so. -/
theorem get?_of_member? {document : JsonOf Loose} {env : Environment}
    (denoted : Json.Denoted document) (set : environmentOf document = .ok env) {name : String}
    (plain : '\ufffd' ∉ name.toList) {v : JsonOf Loose}
    (member : Json.member? (Loose.ofString name) document = some v) :
    env.get? name = some (valueText v).shown := by
  cases denoted with
  | @object members distinct _ =>
    obtain ⟨-, rfl⟩ := environmentOf_object_eq_ok_iff.1 set
    have once (w : JsonOf Loose) : Named.get? (Loose.ofString name) members = some w ↔
        (Loose.ofString name, w) ∈ members := Named.get?_eq_some_iff distinct
    have listed : Named.get? (Loose.ofString name) members = some v := member
    have found : Named.get? name
        (members.map fun m => (m.1.shown, some (valueText m.2).shown)).reverse =
          some (some (valueText v).shown) := by
      refine Named.get?_of_unique ?_ fun other mem => ?_
      · refine List.mem_reverse.2 (List.mem_map.2 ⟨_, (once v).1 listed, ?_⟩)
        rw [Loose.shown_ofString]
      · obtain ⟨⟨spelled, w⟩, there, same⟩ := List.mem_map.1 (List.mem_reverse.1 mem)
        obtain ⟨shown, rfl⟩ := Prod.mk.inj same
        obtain rfl := Loose.eq_ofString_of_shown shown plain
        rw [Option.some.inj (((once w).2 there).symm.trans listed)]
    rw [Environment.get?_ofList, found]
    rfl
  | _ => cases member

/-! ## 2. What becomes of a number -/

theorem plain_name (s : Setting) : '\ufffd' ∉ s.name.toList := by
  have all : ∀ s ∈ Setting.all, '\ufffd' ∉ s.name.toList := by decide
  exact all s (Setting.mem_all s)

/-- A setting that a file sets to a number, and the process does not set, is read from the text of
that number. -/
theorem reading_of_number {document : JsonOf Loose} {values process : Environment}
    (denoted : Json.Denoted document) (set : environmentOf document = .ok values) {s : Setting}
    {x : Number} (member : Json.member? (Loose.ofString s.name) document = some (.number x))
    (free : process.get? s.name = none) :
    ((Environment.merge [values, process]).reading s).value = lenient x.text := by
  have passed := ne_reserved_of_mem (name_mem_variableNames s)
  have text : (Environment.merge [values, process]).get? s.name = some x.text := by
    rw [Environment.get?_merge_pair _ _ passed, free, Option.none_or,
      get?_of_member? denoted set (plain_name s) member, valueText, Loose.shown_ofString]
  rw [Environment.reading, Environment.read_of_set text]

/-- A `.json` file that loads, with a number for a setting that the process does not set. What is
used for the setting is the number, cut off toward zero and clamped, exactly if the number is
written without an exponent; otherwise it is a number of one digit. Of numbers that are written
without one, the greater is never used as the lesser. -/
theorem used_of_numbers {files : Files} {path : String} {text : List Char}
    {document : JsonOf Loose} {values : Environment} (json : isJsonPath path = true)
    (found : files.text path = .ok text)
    (parsed : Json.parse? (String.ofList text) = some document)
    (loads : load files path = .ok values) (process : Environment) :
    ∃ r, resolve files process (some path) = .ok r ∧
      ∀ (s : Setting) (x : Number),
        Json.member? (Loose.ofString s.name) document = some (.number x) →
        process.get? s.name = none →
        ((r.environment.reading s).value = x.saturated ↔ x.WrittenOut) ∧
        (¬x.WrittenOut → (r.environment.reading s).value.natAbs ≤ 9) ∧
        ∀ (t : Setting) (y : Number) (p q : ℚ),
          Json.member? (Loose.ofString t.name) document = some (.number y) →
          process.get? t.name = none → x.WrittenOut → y.WrittenOut →
          x.value? = some p → y.value? = some q → p ≤ q →
          (r.environment.reading s).value ≤ (r.environment.reading t).value := by
  have denoted := Json.denoted_of_parse? parsed
  have set : environmentOf document = .ok values := by
    obtain ⟨text', value, found', valued, set⟩ := load_eq_ok_iff.1 loads
    rw [found] at found'
    cases found'
    rw [valueOf, if_pos json, parsed] at valued
    cases valued
    exact set
  have gives : EnvFile.Gives files (some path) values := loads
  have used (s : Setting) (x : Number)
      (member : Json.member? (Loose.ofString s.name) document = some (.number x))
      (free : process.get? s.name = none) :
      ((Environment.merge [values, process]).reading s).value = lenient x.text :=
    reading_of_number denoted set member free
  have back (s : Setting) (x : Number)
      (member : Json.member? (Loose.ofString s.name) document = some (.number x)) : x.ReadBack :=
    Number.readBack_of_held (Json.held_of_member? denoted member)
  refine ⟨_, resolve_of_gives gives process, fun s x member free => ?_⟩
  simp only [Resolved.ofEnvironment, used s x member free]
  refine ⟨⟨fun same => ?_, (back s x member).kept⟩, fun exponent => ?_, ?_⟩
  · by_contra exponent
    exact ((back s x member).lost exponent).1 same
  · exact ((back s x member).lost exponent).2
  · intro t y p q member' free' written written' left right le
    rw [used t y member' free', (back s x member).kept written, (back t y member').kept written']
    exact Number.saturated_le left right le

/-! ## 3. A great number -/

/-- A map with a number of 22 places, and one of ten. -/
def greatText : List Char :=
  "\x7b\"NUM_ITERATIONS\": 1000000000000000000000, \"SAMPLING_FACTOR\": 2.5e9\x7d".toList

def greatNumbers : Files :=
  Directory.read ⟨[("great.json", .file (greatText.map fun c => UInt8.ofNat c.toNat))]⟩

theorem exists_document_greatNumbers : ∃ document : JsonOf Loose,
    Json.parse? (String.ofList greatText) = some document ∧
      Json.member? (Loose.ofString "NUM_ITERATIONS") document =
        some (.number (.integer (10 ^ 21))) ∧
      Json.member? (Loose.ofString "SAMPLING_FACTOR") document =
        some (.number (.integer 2500000000)) := by
  have numbers : (Json.parse? (String.ofList greatText)).map (fun document : JsonOf Loose =>
      (Json.numberAt? (Loose.ofString "NUM_ITERATIONS") document,
        Json.numberAt? (Loose.ofString "SAMPLING_FACTOR") document)) =
          some (some (.integer (10 ^ 21)), some (.integer 2500000000)) := by
    decide +kernel
  obtain ⟨document, parsed, both⟩ := Option.map_eq_some_iff.1 numbers
  obtain ⟨first, second⟩ := Prod.mk.inj both
  exact ⟨document, parsed, Json.member?_of_numberAt? first, Json.member?_of_numberAt? second⟩

theorem exists_values_greatNumbers : ∃ values, load greatNumbers "great.json" = .ok values := by
  have succeeds : (load greatNumbers "great.json").isOk = true := by decide +kernel
  cases loads : load greatNumbers "great.json" with
  | ok values => exact ⟨values, rfl⟩
  | error e =>
    rw [loads] at succeeds
    cases succeeds

theorem used_of_numbers_greatNumbers :
    ∃ r, resolve greatNumbers .empty (some "great.json") = .ok r ∧
      (r.environment.reading (.quantity .iterations)).value ≠
        (Number.integer (10 ^ 21)).saturated ∧
      (r.environment.reading (.quantity .samplingFactor)).value = 2147483647 := by
  obtain ⟨document, parsed, first, second⟩ := exists_document_greatNumbers
  obtain ⟨values, loads⟩ := exists_values_greatNumbers
  obtain ⟨r, resolved, used⟩ := used_of_numbers (by decide) (by decide +kernel) parsed loads .empty
  refine ⟨r, resolved, fun same => ?_, ?_⟩
  · have written := (used (.quantity .iterations) _ first rfl).1.1 same
    exact absurd (Number.writtenOut_integer_iff.1 written) (by decide)
  · rw [(used (.quantity .samplingFactor) _ second rfl).1.2
      (Number.writtenOut_integer_iff.2 (by decide))]
    decide

/-- The number 10 ^ 21 is used as 1. That is less than what is used of a smaller number, and not
what the same digits mean in the environment of a process. -/
theorem magnitude_lost_greatNumbers :
    (∃ document : JsonOf Loose, Json.parse? (String.ofList greatText) = some document ∧
      Json.member? (Loose.ofString "NUM_ITERATIONS") document =
        some (.number (.integer (10 ^ 21))) ∧
      Json.member? (Loose.ofString "SAMPLING_FACTOR") document =
        some (.number (.integer 2500000000))) ∧
    (Number.integer (10 ^ 21)).saturated = 2147483647 ∧
    lenient "1000000000000000000000" = 2147483647 ∧
    ∃ r, resolve greatNumbers .empty (some "great.json") = .ok r ∧
      (r.environment.reading (.quantity .iterations)).value = 1 ∧
      (r.environment.reading (.quantity .samplingFactor)).value = 2147483647 := by
  refine ⟨exists_document_greatNumbers, by decide, by decide +kernel, ?_⟩
  have used : (resolve greatNumbers .empty (some "great.json")).toOption.map (fun r =>
      ((r.environment.reading (.quantity .iterations)).value,
        (r.environment.reading (.quantity .samplingFactor)).value)) = some (1, 2147483647) := by
    decide +kernel
  cases resolved : resolve greatNumbers .empty (some "great.json") with
  | error e =>
    rw [resolved] at used
    cases used
  | ok r =>
    rw [resolved] at used
    exact ⟨r, rfl, Prod.mk.inj (Option.some.inj used)⟩

end EnvFile

end BenchSettings
