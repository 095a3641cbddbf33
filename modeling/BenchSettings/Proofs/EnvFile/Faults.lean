/-
BenchSettings.Proofs.EnvFile.Faults — what an env file sets, or all that is
wrong with it.

A map of an env file sets variables if it is flat: every name is that of a
variable and every value a scalar. What is wrong with any other map is listed
member by member, a bad name before a bad value, and no member hides another
(`decided_entriesOf`). A value that is no map has one fault, and no value at all
is the map without members. The texts that are set are loose, as those of the
file are. An environment holds what is shown of them.

The members are gone through as the object lists them, which is not how the
file does: names that are array indices come first. Such a name is never that
of a variable, so what moves to the front is a fault. `environmentOf_parsed`
takes the members from the text of the file, in either format.
-/
import BenchSettings.Proofs.EnvFile.Reload
import BenchSettings.Proofs.Json.Listing
import BenchSettings.Proofs.Text.Classes

namespace BenchSettings

open Check (Fault Issue Kind)
open Text (Loose)

/-! ## 1. The members of a file -/

namespace Yaml

/-- The members that a node lists, if it is a map, as they are written. -/
def Node.writtenMembers? : Node → Option (List (Loose × JsonOf Loose))
  | .map m entries =>
    match entryValues (Node.map m entries).anchors (pass m (.object []) []) entries with
    | .ok (written, _) => some written
    | .error _ => none
  | _ => none

theorem Node.exists_written_of_toJson {n : Node} {members : List (Loose × JsonOf Loose)}
    (denotes : n.toJson = .ok (.object members)) :
    ∃ written, n.writtenMembers? = some written ∧ Json.ofWritten written = .object members := by
  rw [toJson] at denotes
  cases n with
  | text m style content => cases denotes
  | list m items =>
    simp only [value] at denotes
    cases listed : itemValues (Node.list m items).anchors (pass m (.array []) []) items with
    | error e => simp [listed, bind, Except.bind] at denotes
    | ok r => simp [listed, bind, Except.bind, pure, Except.pure] at denotes
  | map m entries =>
    simp only [value] at denotes
    rw [writtenMembers?]
    cases listed : entryValues (Node.map m entries).anchors (pass m (.object []) []) entries with
    | error e => simp [listed, bind, Except.bind] at denotes
    | ok r =>
      refine ⟨r.1, rfl, ?_⟩
      simpa [listed, bind, Except.bind, pure, Except.pure] using denotes
  | reference m name place =>
    -- No anchor comes before the document.
    simp only [value, use] at denotes
    cases target : target? (Node.reference m name place).anchors name place <;>
      simp [target, bind, Except.bind] at denotes

/-- The members of the map that a text holds, as they are written there. -/
def writtenMembers? (text : List Char) : Option (List (Loose × JsonOf Loose)) :=
  match nodeOfText? text with
  | some (some node) => node.writtenMembers?
  | _ => none

theorem exists_written_of_parse {text : List Char} {members : List (Loose × JsonOf Loose)}
    (read : parse text = .ok (some (.object members))) :
    ∃ written, writtenMembers? text = some written ∧
      Json.ofWritten written = .object members := by
  rw [parse] at read
  rw [writtenMembers?]
  cases given : nodeOfText? text with
  | none => simp [given] at read
  | some document =>
    cases document with
    | none => simp [given] at read
    | some node =>
      cases denoted : node.toJson with
      | error e => simp [given, denoted] at read
      | ok value =>
        simp only [given, denoted, Except.ok.injEq, Option.some.injEq] at read
        exact node.exists_written_of_toJson (denoted.trans (congrArg _ read))

end Yaml

namespace EnvFile

/-- The members of the map in a file, as they are written there. -/
def writtenMembers? (path : String) (text : List Char) : Option (List (Loose × JsonOf Loose)) :=
  if isJsonPath path then Json.writtenMembers? (String.ofList text) else Yaml.writtenMembers? text

theorem exists_written_of_valueOf {path : String} {text : List Char}
    {members : List (Loose × JsonOf Loose)} (parsed : valueOf path text = .ok (.object members)) :
    ∃ written, writtenMembers? path text = some written ∧
      Json.ofWritten written = .object members := by
  rw [valueOf] at parsed
  rw [writtenMembers?]
  split at parsed
  · rename_i json
    rw [if_pos json]
    split at parsed
    · rename_i value read
      cases parsed
      exact Json.exists_written_of_parse? read
    · cases parsed
  · rename_i yaml
    rw [if_neg yaml]
    split at parsed
    · rename_i document read
      cases document with
      | none => cases parsed
      | some value =>
        cases parsed
        exact Yaml.exists_written_of_parse read
    · cases parsed

/-! ## 2. Names of variables -/

def capitals : List Char := "ABCDEFGHIJKLMNOPQRSTUVWXYZ".toList

def nameChars : List Char := capitals ++ (Text.digitChars ++ ['_'])

/-- The names of variables: a capital, and then capitals, digits and underscores. -/
def VariableName (name : Loose) : Prop :=
  ∃ c rest, name = Loose.ofString (String.ofList (c :: rest)) ∧
    c ∈ capitals ∧ ∀ d ∈ rest, d ∈ nameChars

theorem isNameStart_iff_mem {c : Char} : isNameStart c = true ↔ c ∈ capitals := by
  refine Text.iff_mem_of_below isNameStart 91 ?_ (by decide) (by decide)
  intro c start
  simp only [isNameStart, Bool.and_eq_true, decide_eq_true_eq] at start
  have hi : c.toNat ≤ 90 := start.2
  omega

theorem isNamePart_iff_mem {c : Char} : isNamePart c = true ↔ c ∈ nameChars := by
  simp [isNamePart, nameChars, isNameStart_iff_mem, Text.isDigit_iff_mem, or_assoc]

theorem isVariableName_iff {name : Loose} :
    isVariableName name.shown = true ↔ VariableName name := by
  constructor
  · intro named
    rw [isVariableName] at named
    split at named
    · cases named
    · rename_i c rest chars
      obtain ⟨first, others⟩ := Bool.and_eq_true_iff.1 named
      have start := isNameStart_iff_mem.1 first
      have parts : ∀ d ∈ rest, d ∈ nameChars := fun d mem =>
        isNamePart_iff_mem.1 (List.all_eq_true.1 others d mem)
      refine ⟨c, rest, Loose.eq_ofString_of_shown ?_ ?_, start, parts⟩
      · rw [← chars, String.ofList_toList]
      · rw [String.toList_ofList]
        have other : '\ufffd' ∉ nameChars := by decide
        rintro (_ | ⟨_, mem⟩)
        · exact other (List.mem_append_left _ start)
        · exact other (parts _ mem)
  · rintro ⟨c, rest, rfl, start, parts⟩
    rw [Loose.shown_ofString, isVariableName, String.toList_ofList]
    refine Bool.and_eq_true_iff.2 ⟨isNameStart_iff_mem.2 start, ?_⟩
    exact List.all_eq_true.2 fun d mem => isNamePart_iff_mem.2 (parts d mem)

instance (name : Loose) : Decidable (VariableName name) := decidable_of_iff _ isVariableName_iff

theorem VariableName.ofString_shown {name : Loose} (named : VariableName name) :
    name = Loose.ofString name.shown := by
  obtain ⟨c, rest, rfl, -⟩ := named
  rw [Loose.shown_ofString]

/-! ## 3. Scalars -/

/-- The values that a variable can be set to: texts, numbers and truth values. -/
inductive Scalar : JsonOf Loose → Prop
  | string (text : Loose) : Scalar (.string text)
  | number (n : Number) : Scalar (.number n)
  | bool (value : Bool) : Scalar (.bool value)

theorem valueFaults_eq_nil_iff {v : JsonOf Loose} : valueFaults v = [] ↔ Scalar v := by
  constructor
  · intro clear
    cases v with
    | string text => exact .string text
    | number n => exact .number n
    | bool value => exact .bool value
    | _ => cases clear
  · rintro (_ | _ | _) <;> rfl

theorem valueFaults_of_not_scalar {v : JsonOf Loose} (other : ¬Scalar v) :
    valueFaults v = [.noAlternative [.string, .number, .boolean] (Kind.ofJson v)] := by
  cases v with
  | string text => exact absurd (.string text) other
  | number n => exact absurd (.number n) other
  | bool value => exact absurd (.bool value) other
  | _ => rfl

instance (v : JsonOf Loose) : Decidable (Scalar v) := decidable_of_iff _ valueFaults_eq_nil_iff

/-- The text that a scalar stands for: `1` and `0` for the truth values, also as texts, any other
text for itself, and what is written of a number. -/
inductive SetTo : JsonOf Loose → Loose → Prop
  | yes : SetTo (.bool true) "1"
  | no : SetTo (.bool false) "0"
  | yesText : SetTo (.string "true") "1"
  | noText : SetTo (.string "false") "0"
  | text {t : Loose} (notYes : t ≠ "true") (notNo : t ≠ "false") : SetTo (.string t) t
  | number (n : Number) : SetTo (.number n) n.text

theorem setTo_valueText {v : JsonOf Loose} (scalar : Scalar v) : SetTo v (valueText v) := by
  cases scalar with
  | number n => exact .number n
  | bool value =>
    cases value with
    | true => exact .yes
    | false => exact .no
  | string text =>
    rw [valueText, settingText]
    split
    · subst text
      exact .yesText
    split
    · subst text
      exact .noText
    · exact .text ‹_› ‹_›

/-! ## 4. Maps -/

/-- What is told of an issue: its path, its code and its message. -/
def told (i : Issue) : List Loose × String × String := (i.path, i.fault.code, i.fault.message)

/-- All that is wrong with a member. -/
def flaws (m : Loose × JsonOf Loose) : List (List Loose × String × String) :=
  (if VariableName m.1 then []
    else [([m.1], "invalid_string", "Variable names must be upper-case identifiers")]) ++
  if Scalar m.2 then [] else [([m.1], "invalid_union", "Invalid input")]

theorem flaws_eq_nil_iff {m : Loose × JsonOf Loose} :
    flaws m = [] ↔ VariableName m.1 ∧ Scalar m.2 := by
  simp [flaws]

theorem map_told_memberIssues (m : Loose × JsonOf Loose) :
    (memberIssues m).map told = flaws m := by
  have names : ∀ faults : List Fault, (Issue.under [m.1] faults).map told =
      faults.map fun f => ([m.1], f.code, f.message) := by
    intro faults
    rw [Issue.under, List.map_map]
    rfl
  have name : (if isVariableName m.1.shown then [] else [Fault.badName]) =
      if VariableName m.1 then [] else [.badName] := by
    simp only [isVariableName_iff]
  have value : valueFaults m.2 = if Scalar m.2 then []
      else [.noAlternative [.string, .number, .boolean] (Kind.ofJson m.2)] := by
    split
    · exact valueFaults_eq_nil_iff.2 ‹_›
    · exact valueFaults_of_not_scalar ‹_›
  rw [memberIssues, names, name, value, flaws, List.map_append, apply_ite (List.map _),
    apply_ite (List.map _)]
  rfl

/-- What becomes of a map: it sets its variables, one for every member, or all that is wrong with
its members is listed. -/
structure Decided (members : List (Loose × JsonOf Loose))
    (outcome : Except (List Issue) (List (Loose × Loose))) : Prop where
  accepted : (∃ entries, outcome = .ok entries) ↔ ∀ m ∈ members, VariableName m.1 ∧ Scalar m.2
  sets : ∀ entries, outcome = .ok entries →
    List.Forall₂ (fun m e => e.1 = m.1 ∧ SetTo m.2 e.2) members entries
  lists : ∀ issues, outcome = .error issues → issues.map told = members.flatMap flaws

section

variable {members : List (Loose × JsonOf Loose)}

theorem fits_iff : (∀ m ∈ members, isVariableName m.1.shown = true ∧ valueFaults m.2 = []) ↔
    ∀ m ∈ members, VariableName m.1 ∧ Scalar m.2 := by
  simp only [isVariableName_iff, valueFaults_eq_nil_iff]

theorem decided_entriesOf : Decided members (entriesOf (.object members)) where
  accepted := by
    simp only [entriesOf_object_eq_ok_iff, fits_iff, exists_and_left, exists_eq', and_true]
  sets := by
    intro entries set
    obtain ⟨fit, rfl⟩ := entriesOf_object_eq_ok_iff.1 set
    rw [List.forall₂_map_right_iff, List.forall₂_same]
    exact fun m mem => ⟨rfl, setTo_valueText (fits_iff.1 fit m mem).2⟩
  lists := by
    intro issues rejected
    have same : members.flatMap memberIssues = issues := by
      rw [entriesOf] at rejected
      split at rejected
      · cases rejected
      · cases rejected
        rfl
    rw [← same, List.map_flatMap]
    exact List.flatMap_congr fun m _ => map_told_memberIssues m

/-- An environment lists variables of distinct names as they come, each with its name. -/
theorem entries_shownEnvironment {entries : List (Loose × Loose)}
    (distinct : (Named.names entries).Nodup) (named : ∀ e ∈ entries, VariableName e.1) :
    (shownEnvironment entries).entries = entries.map fun e => (e.1.shown, some e.2.shown) := by
  rw [shownEnvironment, Environment.entries_ofList, Named.ofPairs_of_nodup]
  rw [Named.names, List.map_map]
  have kept : entries.map (Loose.ofString ∘ fun e => e.1.shown) = Named.names entries :=
    List.map_congr_left fun e mem => (named e mem).ofString_shown.symm
  refine List.Nodup.of_map Loose.ofString ?_
  rw [List.map_map]
  exact kept ▸ distinct

/-- What a map sets is listed in an environment in the order of its members. -/
theorem entries_environmentOf (distinct : (Named.names members).Nodup) {env : Environment}
    (set : environmentOf (.object members) = .ok env) : ∃ entries,
    entriesOf (.object members) = .ok entries ∧
      List.Forall₂ (fun e s => e.1 = Loose.ofString s.1 ∧ s.2 = some e.2.shown) entries
        env.entries := by
  obtain ⟨entries, checked, rfl⟩ := environmentOf_eq_ok_iff.1 set
  obtain ⟨fit, rfl⟩ := entriesOf_object_eq_ok_iff.1 checked
  have named : ∀ e ∈ members.map fun m => (m.1, valueText m.2), VariableName e.1 :=
    List.forall_mem_map.2 fun m mem => (fits_iff.1 fit m mem).1
  refine ⟨_, checked, ?_⟩
  rw [entries_shownEnvironment ?_ named, List.forall₂_map_right_iff, List.forall₂_same]
  · exact fun e mem => ⟨(named e mem).ofString_shown, rfl⟩
  · rw [Named.names, List.map_map]
    exact distinct

end

/-! ## 5. Files -/

/-- The value of an env file is decided in full. No value at all sets nothing, as a map without
members does, and a value that is no map has this one fault. A map is decided by its members, which
are those that are written in the file, the indices by their numbers and before all others; and an
environment lists what it sets, each variable with what is shown of its text. -/
theorem environmentOf_parsed {path : String} {text : List Char} {v : JsonOf Loose}
    (parsed : valueOf path text = .ok v) :
    (v = .null → entriesOf v = .ok [] ∧ entriesOf (.object []) = .ok []) ∧
    (v ≠ .null → (∀ members, v ≠ .object members) → ∃ issue, entriesOf v = .error [issue] ∧
      told issue = ([], "invalid_type", "Expected object, received " ++ (Kind.ofJson v).word)) ∧
    (∀ members, v = .object members → ∃ written, writtenMembers? path text = some written ∧
      Json.Listed (Named.ofPairs written) members ∧ Decided members (entriesOf v)) ∧
    (∀ issues, environmentOf v = .error issues ↔ entriesOf v = .error issues) ∧
    ∀ env, environmentOf v = .ok env → ∃ entries, entriesOf v = .ok entries ∧
      List.Forall₂ (fun e s => e.1 = Loose.ofString s.1 ∧ s.2 = some e.2.shown) entries
        env.entries := by
  have ofWritten {members} (map : v = .object members) : ∃ written,
      writtenMembers? path text = some written ∧
        Json.Listed (Named.ofPairs written) members := by
    obtain ⟨written, inFile, made⟩ := exists_written_of_valueOf (map ▸ parsed)
    rw [Json.ofWritten, JsonOf.object.injEq] at made
    exact ⟨written, inFile, made ▸ Json.listed_arrange (Named.nodup_ofPairs written)⟩
  refine ⟨?nothing, ?noMap, ?map, ?rejected, ?environment⟩
  case nothing =>
    rintro rfl
    exact ⟨rfl, rfl⟩
  case noMap =>
    intro given noMap
    have kind : ∀ k : Kind, k ≠ .absent →
        told ⟨[], .wrongKind .object k⟩ =
          ([], "invalid_type", "Expected object, received " ++ k.word) := by
      intro k there
      cases k with
      | absent => exact absurd rfl there
      | _ => rfl
    cases v with
    | null => exact absurd rfl given
    | object members => exact absurd rfl (noMap members)
    | number n =>
      refine ⟨_, rfl, kind _ fun absent => ?_⟩
      cases n <;> cases absent
    | _ => exact ⟨_, rfl, rfl⟩
  case map =>
    intro members map
    obtain ⟨written, inFile, listed⟩ := ofWritten map
    exact ⟨written, inFile, listed, map ▸ decided_entriesOf⟩
  case rejected =>
    intro issues
    rw [environmentOf]
    cases entriesOf v <;> simp [Except.map]
  case environment =>
    intro env set
    cases v with
    | null =>
      cases set
      exact ⟨[], rfl, .nil⟩
    | object members =>
      obtain ⟨written, -, listed⟩ := ofWritten rfl
      have distinct := (listed.same.map Prod.fst).symm.nodup (Named.nodup_ofPairs written)
      exact entries_environmentOf distinct set
    | _ => cases set

/-- A map with one member that sets a variable, and faults of every sort in the others. -/
def mixedText : List Char :=
  "\x7b\"b\": null, \"A\": true, \"10\": [], \"C\": [1]\x7d".toList

def mixedFlaws : List (List Loose × String × String) :=
  [(["10"], "invalid_string", "Variable names must be upper-case identifiers"),
   (["10"], "invalid_union", "Invalid input"),
   (["b"], "invalid_string", "Variable names must be upper-case identifiers"),
   (["b"], "invalid_union", "Invalid input"),
   (["C"], "invalid_union", "Invalid input")]

def mapFlaws : JsonOf Loose → List (List Loose × String × String)
  | .object members => members.flatMap flaws
  | _ => []

theorem exists_members_mixedText : ∃ members,
    valueOf "vars.json" mixedText = .ok (.object members) ∧ members.flatMap flaws = mixedFlaws := by
  have wrong : (valueOf "vars.json" mixedText).toOption.map mapFlaws = some mixedFlaws := by
    decide +kernel
  cases parsed : valueOf "vars.json" mixedText with
  | error e =>
    rw [parsed] at wrong
    cases wrong
  | ok v =>
    rw [parsed] at wrong
    cases v with
    | object members => exact ⟨members, rfl, Option.some.inj wrong⟩
    | _ => cases wrong

theorem environmentOf_parsed_mixedText : ∃ v issues,
    valueOf "vars.json" mixedText = .ok v ∧ environmentOf v = .error issues ∧
      issues.map told = mixedFlaws := by
  obtain ⟨members, parsed, wrong⟩ := exists_members_mixedText
  obtain ⟨-, -, map, rejected, -⟩ := environmentOf_parsed parsed
  obtain ⟨written, -, -, decided⟩ := map members rfl
  cases outcome : entriesOf (.object members) with
  | error issues =>
    exact ⟨_, issues, parsed, (rejected issues).2 outcome,
      (decided.lists issues outcome).trans wrong⟩
  | ok entries =>
    have fit := decided.accepted.1 ⟨entries, outcome⟩
    have clear : members.flatMap flaws = [] :=
      List.flatMap_eq_nil_iff.2 fun m mem => flaws_eq_nil_iff.2 (fit m mem)
    rw [wrong] at clear
    cases clear

end EnvFile

end BenchSettings
