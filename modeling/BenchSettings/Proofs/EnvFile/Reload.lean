/-
BenchSettings.Proofs.EnvFile.Reload — variables saved in a file and loaded
again.

An environment is saved as the canonical text of one object, its variables
with their texts. `reload_saved` says what comes back when that file is loaded
as an env file: the same variables with the same texts, whatever characters
are in them, but for the two truth values, which an env file sets to `1` and
`0`.

So saving and loading are not inverse to one another for every environment.
They are for every environment that came out of a file, of either format. No
value of a file sets a variable to a truth value (`settledText_valueText`),
not even a number, whose text is never one of these words, so the truth values
have nothing left to change.

The way back is put together from four facts that each know nothing of
the others: bytes are decoded to the text that was encoded, a canonical text
read with loose texts is the loosened value (`Json.parse?_serialize_loosen`),
canonical form only reorders the variables (`canonical_toJson`), and loading a
map of distinct names lists them as they stand.
-/
import BenchSettings.Proofs.Command.Layers
import BenchSettings.Proofs.Json.Loosened
import BenchSettings.Proofs.Number.Written

namespace BenchSettings

open Text (Loose)

namespace EnvFile

/-! ## 1. What a file sets -/

/-- What an environment holds of a text that a file sets. -/
def settledText (text : String) : String :=
  if text = "true" then "1" else if text = "false" then "0" else text

theorem shown_settingText (text : Loose) : (settingText text).shown = settledText text.shown := by
  have word {s : String} (plain : '\ufffd' ∉ s.toList) : text.shown = s ↔ text = s :=
    ⟨fun same => Loose.eq_ofString_of_shown same plain, fun same => same ▸ Loose.shown_ofString s⟩
  have yes : text.shown = "true" ↔ text = "true" := word (by decide)
  have no : text.shown = "false" ↔ text = "false" := word (by decide)
  simp only [settingText, settledText, yes, no]
  split
  · exact Loose.shown_ofString "1"
  split
  · exact Loose.shown_ofString "0"
  · rfl

theorem settledText_eq_self_iff {text : String} :
    settledText text = text ↔ text ≠ "true" ∧ text ≠ "false" := by
  unfold settledText
  split
  · subst text
    decide
  split
  · subst text
    decide
  · simp [*]

theorem settledText_settledText (text : String) :
    settledText (settledText text) = settledText text := by
  rw [settledText_eq_self_iff]
  unfold settledText
  split
  · decide
  split
  · decide
  · exact ⟨‹_›, ‹_›⟩

/-- The text of a number is no truth value. -/
theorem settledText_number (n : Number) : settledText n.text = n.text := by
  rw [settledText_eq_self_iff]
  rcases n.text_cases with numerals | word
  · constructor <;> intro same <;> rw [same] at numerals
    · exact absurd (numerals 't' (by decide)) (by decide)
    · exact absurd (numerals 'f' (by decide)) (by decide)
  · simp only [List.mem_cons, List.not_mem_nil, or_false] at word
    rcases word with same | same | same <;> rw [same] <;> decide

/-- No value sets a variable to the text of a truth value. -/
theorem settledText_valueText (v : JsonOf Loose) :
    settledText (valueText v).shown = (valueText v).shown := by
  cases v with
  | string text =>
    rw [valueText, shown_settingText]
    exact settledText_settledText text.shown
  | number n =>
    rw [valueText, Loose.shown_ofString]
    exact settledText_number n
  | bool b => cases b <;> decide
  | null => rfl
  | array items => rfl
  | object members => rfl

theorem memberIssues_eq_nil_iff {member : Loose × JsonOf Loose} :
    memberIssues member = [] ↔
      isVariableName member.1.shown = true ∧ valueFaults member.2 = [] := by
  rw [memberIssues, Check.Issue.under_eq_nil_iff, List.append_eq_nil_iff]
  cases isVariableName member.1.shown <;> simp

/-- Of a map, every name is the name of a variable and every value a scalar, or it sets nothing. -/
theorem entriesOf_object_eq_ok_iff {members : List (Loose × JsonOf Loose)}
    {entries : List (Loose × Loose)} :
    entriesOf (.object members) = .ok entries ↔
      (∀ m ∈ members, isVariableName m.1.shown = true ∧ valueFaults m.2 = []) ∧
        (members.map fun m => (m.1, valueText m.2)) = entries := by
  have clear : members.flatMap memberIssues = [] ↔
      ∀ m ∈ members, isVariableName m.1.shown = true ∧ valueFaults m.2 = [] := by
    simp only [List.flatMap_eq_nil_iff, memberIssues_eq_nil_iff]
  rw [← clear, entriesOf]
  cases members.flatMap memberIssues with
  | nil => simp
  | cons issue rest => simp

theorem environmentOf_eq_ok_iff {v : JsonOf Loose} {env : Environment} :
    environmentOf v = .ok env ↔
      ∃ entries, entriesOf v = .ok entries ∧ shownEnvironment entries = env := by
  rw [environmentOf]
  cases entriesOf v <;> simp [Except.map]

theorem environmentOf_object_eq_ok_iff {members : List (Loose × JsonOf Loose)} {env : Environment} :
    environmentOf (.object members) = .ok env ↔
      (∀ m ∈ members, isVariableName m.1.shown = true ∧ valueFaults m.2 = []) ∧
        Environment.ofList (members.map fun m => (m.1.shown, some (valueText m.2).shown)) =
          env := by
  simp only [environmentOf_eq_ok_iff, entriesOf_object_eq_ok_iff, and_assoc, exists_and_left,
    exists_eq_left', shownEnvironment, List.map_map]
  rfl

/-- A file is loaded when it can be read, is well-formed and has a map that sets variables. -/
theorem load_eq_ok_iff {files : Files} {path : String} {env : Environment} :
    load files path = .ok env ↔ ∃ text value, files.text path = .ok text ∧
      valueOf path text = .ok value ∧ environmentOf value = .ok env := by
  unfold load
  cases files.text path with
  | error e => simp
  | ok text =>
    cases given : valueOf path text with
    | error e => simp [given]
    | ok value => cases set : environmentOf value <;> simp [given, set]

/-- What a file sets has names of variables and texts that are no truth values. -/
theorem mem_of_load {files : Files} {path : String} {env : Environment}
    (loads : load files path = .ok env) {e : String × Option String} (mem : e ∈ env.entries) :
    isVariableName e.1 = true ∧ ∃ text, e.2 = some text ∧ settledText text = text := by
  obtain ⟨-, v, -, -, accepted⟩ := load_eq_ok_iff.1 loads
  cases v with
  | null =>
    cases accepted
    cases mem
  | object members =>
    obtain ⟨fit, rfl⟩ := environmentOf_object_eq_ok_iff.1 accepted
    rw [Environment.entries_ofList] at mem
    obtain ⟨m, there, rfl⟩ := List.mem_map.1 (Named.mem_of_mem_ofPairs mem)
    exact ⟨(fit m there).1, _, rfl, settledText_valueText m.2⟩
  | _ => cases accepted

/-! ## 2. What is saved -/

/-- The variables that are set, as one value. -/
def toJson (env : Environment) : Json := .object (env.toList.map fun e => (e.1, .string e.2))

theorem names_toJson (env : Environment) :
    Named.names (env.toList.map fun e => (e.1, (.string e.2 : Json))) = Named.names env.toList := by
  rw [Named.names, List.map_map]
  rfl

/-- The bytes of the file in which an environment is saved. -/
def saved (env : Environment) : List UInt8 := Text.Utf8.encode (toJson env).serialize.toList

/-- The variables of an environment as a file sets them. -/
def settled (env : Environment) : List (String × Option String) :=
  env.toList.map fun e => (e.1, some (settledText e.2))

theorem nodup_names_settled (env : Environment) : (Named.names (settled env)).Nodup := by
  rw [settled, Named.names, List.map_map]
  exact env.nodup_names_toList

section

variable {env : Environment} (names : ∀ e ∈ env.toList, isVariableName e.1 = true)

include names

theorem reserved_not_mem_toList : Named.reserved ∉ Named.names env.toList := by
  intro mem
  obtain ⟨e, there, reserved⟩ := List.mem_map.1 mem
  have named := names e there
  rw [reserved] at named
  exact absurd named (by decide)

/-- What is saved is the variables, in some order, each with its text. -/
theorem canonical_toJson : ∃ members, (toJson env).canonical = .object members ∧
    members.Perm (env.toList.map fun e => (e.1, .string e.2)) := by
  refine ⟨_, by rw [toJson, Json.canonical], (Json.sortMembers_perm _).trans ?_⟩
  rw [Json.canonicalMembers_eq_map, List.map_map]
  · rfl
  · rw [names_toJson]
    exact reserved_not_mem_toList names

theorem plain_toJson : Json.Plain (toJson env) := by
  refine .object ?_ ?_ (List.forall_mem_map.2 fun e _ => .string e.2)
  · rw [names_toJson]
    exact env.nodup_names_toList
  · rw [names_toJson]
    exact reserved_not_mem_toList names

/-- The value of a saved file sets the variables that were saved. -/
theorem environmentOf_toJson : ∃ back, environmentOf (toJson env).canonical.loosen = .ok back ∧
    back.entries.Perm (settled env) := by
  obtain ⟨members, canonical, listed⟩ := canonical_toJson names
  have fit : ∀ m ∈ Json.loosenMembers members,
      isVariableName m.1.shown = true ∧ valueFaults m.2 = [] := by
    rw [Json.loosenMembers_eq_map]
    refine List.forall_mem_map.2 fun m mem => ?_
    obtain ⟨e, there, rfl⟩ := List.mem_map.1 (listed.mem_iff.1 mem)
    rw [Loose.shown_ofString]
    exact ⟨names e there, rfl⟩
  have same : ((Json.loosenMembers members).map fun m =>
      (m.1.shown, some (valueText m.2).shown)).Perm (settled env) := by
    rw [Json.loosenMembers_eq_map, List.map_map]
    refine (listed.map _).trans (.of_eq ?_)
    simp [settled, Json.loosen, valueText, shown_settingText, Loose.shown_ofString]
  rw [canonical, Json.loosen]
  refine ⟨_, environmentOf_object_eq_ok_iff.2 ⟨fit, rfl⟩, ?_⟩
  have distinct := (same.map Prod.fst).symm.nodup (nodup_names_settled env)
  rwa [Environment.entries_ofList, Named.ofPairs_of_nodup distinct]

/-- A saved file is loaded with the variables that were saved. -/
theorem load_saved {files : Files} {path : String} (json : isJsonPath path = true)
    (written : files path = .ok (saved env)) :
    ∃ back, load files path = .ok back ∧ back.entries.Perm (settled env) := by
  obtain ⟨back, set, listed⟩ := environmentOf_toJson names
  have text : files.text path = .ok (toJson env).serialize.toList := by
    rw [Files.text, written, Except.map, saved, Text.Utf8.decode_encode]
  have value : valueOf path (toJson env).serialize.toList = .ok (toJson env).canonical.loosen := by
    rw [valueOf, if_pos json, String.ofList_toList,
      Json.parse?_serialize_loosen (plain_toJson names)]
  exact ⟨back, load_eq_ok_iff.2 ⟨_, _, text, value, set⟩, listed⟩

end

/-- Loaded again, a variable has its text as a file sets it. -/
theorem get?_of_settled {env back : Environment} (listed : back.entries.Perm (settled env))
    (name : String) : back.get? name = (env.get? name).map settledText := by
  have found : Named.get? name (settled env) =
      (Named.get? name env.toList).map fun text => some (settledText text) :=
    Named.get?_map (fun text => some (settledText text)) env.toList name
  rw [Environment.get?, Named.get?_of_perm listed back.distinct, found, Environment.get?_toList]
  cases env.get? name <;> rfl

/-- An environment that a file has set is what a file sets it to. -/
theorem settled_of_load {files : Files} {path : String} {env : Environment}
    (loads : load files path = .ok env) : settled env = env.entries := by
  rw [settled, Environment.toList, List.map_filterMap]
  refine (List.filterMap_congr fun e mem => ?_).trans List.filterMap_some
  obtain ⟨-, text, set, same⟩ := mem_of_load loads mem
  obtain ⟨name, state⟩ := e
  simp only at set
  simp [set, same]

/-- A run with nothing but a saved file, in which there is no truth value, sees the texts that were
saved. -/
theorem seenAs_of_settled {env back : Environment} (listed : back.entries.Perm (settled env))
    (texts : ∀ e ∈ env.toList, e.2 ≠ "true" ∧ e.2 ≠ "false") :
    env.SeenAs (.merge [back, .empty]) := by
  intro name mem
  rw [Environment.get?_merge_pair _ _ (ne_reserved_of_mem mem), Environment.get?_empty,
    Option.none_or, get?_of_settled listed]
  cases found : env.get? name with
  | none => rfl
  | some text =>
    have there := Environment.mem_toList.2 ((env.get?_eq_some_iff name text).1 found)
    rw [Option.map_some, settledText_eq_self_iff.2 (texts _ there)]

/-- A file saved from an environment whose names are names of variables sets the same variables to
the same texts, but for the two truth values, which it sets to `1` and `0`. So what a file has set
is set again by the file that is saved from it. Without truth values in it, a saved file configures
a run as the environment itself would. -/
theorem reload_saved {files : Files} {path : String} {env : Environment}
    (json : isJsonPath path = true) (written : files path = .ok (saved env)) :
    ((∀ e ∈ env.toList, isVariableName e.1 = true) →
      ∃ back, load files path = .ok back ∧
        back.entries.Perm (env.toList.map fun (name, text) =>
          (name, some (if text = "true" then "1" else if text = "false" then "0" else text))) ∧
        ((∀ e ∈ env.toList, e.2 ≠ "true" ∧ e.2 ≠ "false") →
          ∃ r, resolve files .empty (some path) = .ok r ∧ r.result = env.load)) ∧
    ∀ (others : Files) (source : String), load others source = .ok env →
      ∃ back, load files path = .ok back ∧ back.entries.Perm env.entries := by
  refine ⟨fun names => ?saved, fun others source loads => ?again⟩
  case saved =>
    obtain ⟨back, loads, listed⟩ := load_saved names json written
    refine ⟨back, loads, listed, fun texts => ?_⟩
    refine ⟨.ofEnvironment (.merge [back, .empty]), by rw [resolve, loads, Except.map], ?_⟩
    exact (seenAs_of_settled listed texts).load_eq
  case again =>
    have names : ∀ e ∈ env.toList, isVariableName e.1 = true := fun e mem =>
      (mem_of_load loads (Environment.mem_toList.1 mem)).1
    obtain ⟨back, loads', listed⟩ := load_saved names json written
    rw [settled_of_load loads] at listed
    exact ⟨back, loads', listed⟩

/-- A way to read files that knows one saved file. -/
def savedAs (path : String) (env : Environment) : Files := fun asked =>
  if asked = path then .ok (saved env) else .error (.notFound asked)

/-- Texts that have to be escaped, and one that is a truth value. -/
def escapedTexts : Environment :=
  .ofList [("GREETING", some "\"hi\"\\\n\x01 é 😀"), ("USE_MEMSET", some "true")]

/-- A file in the other format. -/
def yamlVars : Files :=
  Directory.read ⟨[("vars.yml", .file (Text.Utf8.encode "USE_MEMSET: 'true'\nNOTE: a # b".toList))]⟩

theorem reload_saved_escapedTexts :
    (∃ back, load (savedAs "vars.json" escapedTexts) "vars.json" = .ok back ∧
      back.entries.Perm
        [("GREETING", some "\"hi\"\\\n\x01 é 😀"), ("USE_MEMSET", some "1")]) ∧
    ∃ env, load yamlVars "vars.yml" = .ok env ∧
      ∃ back, load (savedAs "vars.json" env) "vars.json" = .ok back ∧
        back.entries.Perm env.entries := by
  have json : isJsonPath "vars.json" = true := by decide +kernel
  have written (env : Environment) : savedAs "vars.json" env "vars.json" = .ok (saved env) :=
    if_pos rfl
  constructor
  · have names : ∀ e ∈ escapedTexts.toList, isVariableName e.1 = true := by decide +kernel
    obtain ⟨back, loads, listed, -⟩ := (reload_saved json (written escapedTexts)).1 names
    exact ⟨back, loads, listed.trans (.of_eq (by decide +kernel))⟩
  · obtain ⟨env, loads⟩ : ∃ env, load yamlVars "vars.yml" = .ok env := by
      have succeeds : (load yamlVars "vars.yml").isOk = true := by decide +kernel
      cases h : load yamlVars "vars.yml" with
      | ok env => exact ⟨env, rfl⟩
      | error e =>
        rw [h] at succeeds
        cases succeeds
    exact ⟨env, loads, (reload_saved json (written env)).2 yamlVars "vars.yml" loads⟩

end EnvFile

end BenchSettings
