/-
BenchSettings.Proofs.Json.Denoted — the values that texts denote.

Not every tree is a value that some text denotes. In one that was read, every
number is one that a double can hold, however long its literal was, and the
names in an object are distinct, however often they were written (`Denoted`).
That is all that those who use such a value need to know of the reader.

The reader is three functions that call one another with less fuel each time,
so `denoted_of_read` speaks of all three and is proved by induction on the
fuel.
-/
import BenchSettings.Json.Reader
import BenchSettings.Proofs.Number.Doubles

namespace BenchSettings

namespace Json

open Text (Spelled)

variable {τ : Type} [Spelled τ] [DecidableEq τ]

/-! ## 1. What can be read -/

/-- A value as it comes from a text. -/
inductive Denoted : JsonOf τ → Prop where
  | null : Denoted .null
  | bool (b : Bool) : Denoted (.bool b)
  | number {n : Number} (held : n.Held) : Denoted (.number n)
  | string (s : τ) : Denoted (.string s)
  | array {items : List (JsonOf τ)} (all : ∀ v ∈ items, Denoted v) : Denoted (.array items)
  | object {members : List (τ × JsonOf τ)} (distinct : (Named.names members).Nodup)
      (all : ∀ m ∈ members, Denoted m.2) : Denoted (.object members)

/-- Members that were written make an object that can be read. -/
theorem denoted_ofWritten {written : List (τ × JsonOf τ)} (all : ∀ m ∈ written, Denoted m.2) :
    Denoted (ofWritten written) := by
  have listed := arrange_perm (Named.ofPairs written)
  refine .object ((listed.map Prod.fst).symm.nodup (Named.nodup_ofPairs written)) ?_
  exact fun m mem => all m (Named.mem_of_mem_ofPairs (listed.mem_iff.1 mem))

omit [Spelled τ] in
/-- A number that stands in an object is one that a double can hold. -/
theorem held_of_member? {v : JsonOf τ} (denoted : Denoted v) {name : τ} {n : Number}
    (member : member? name v = some (.number n)) : n.Held := by
  cases denoted with
  | @object members distinct all =>
    have there : (name, .number n) ∈ members := (Named.get?_eq_some_iff distinct).1 member
    cases all _ there with
    | number held => exact held
  | _ => cases member

/-- The number that stands in an object under a name. -/
def numberAt? (name : τ) (v : JsonOf τ) : Option Number :=
  match member? name v with
  | some (.number n) => some n
  | _ => none

omit [Spelled τ] in
theorem member?_of_numberAt? {v : JsonOf τ} {name : τ} {n : Number}
    (found : numberAt? name v = some n) : member? name v = some (.number n) := by
  unfold numberAt? at found
  split at found
  · rename_i member
    cases found
    exact member
  · cases found

/-! ## 2. The reader -/

theorem held_of_readNumber? {cs rest : List Char} {n : Number}
    (read : readNumber? cs = some (n, rest)) : n.Held := by
  simp only [readNumber?] at read
  split at read
  all_goals
    split at read
    · cases read
    · simp only [Option.bind_eq_bind, Option.bind_eq_some_iff] at read
      obtain ⟨fraction, -, exponent, -, made⟩ := read
      cases made
      exact Number.held_ofDecimal _ _ _

section

variable {fuel : Nat}
  (readsItems : ∀ {cs rest : List Char} {items : List (JsonOf τ)},
    readItems? fuel cs = some (items, rest) → ∀ v ∈ items, Denoted v)
  (readsMembers : ∀ {cs rest : List Char} {members : List (τ × JsonOf τ)},
    readMembers? fuel cs = some (members, rest) → ∀ m ∈ members, Denoted m.2)
  (readsValue : ∀ {cs rest : List Char} {v : JsonOf τ},
    readValue? fuel cs = some (v, rest) → Denoted v)

include readsItems readsMembers in
theorem denoted_of_readValue? {cs rest : List Char} {v : JsonOf τ}
    (read : readValue? (fuel + 1) cs = some (v, rest)) : Denoted v := by
  cases cs with
  | nil => cases read
  | cons c more =>
    rw [readValue?] at read
    split at read
    · obtain ⟨part, -, made⟩ := Option.map_eq_some_iff.1 read
      cases made
      exact .string _
    split at read
    · split at read
      · cases read
        exact .array fun _ mem => nomatch mem
      · obtain ⟨part, given, made⟩ := Option.map_eq_some_iff.1 read
        cases made
        exact .array (readsItems given)
    split at read
    · split at read
      · cases read
        exact .object List.nodup_nil fun _ mem => nomatch mem
      · obtain ⟨part, given, made⟩ := Option.map_eq_some_iff.1 read
        cases made
        exact denoted_ofWritten (readsMembers given)
    split at read
    · obtain ⟨part, -, made⟩ := Option.map_eq_some_iff.1 read
      cases made
      exact .null
    split at read
    · obtain ⟨part, -, made⟩ := Option.map_eq_some_iff.1 read
      cases made
      exact .bool true
    split at read
    · obtain ⟨part, -, made⟩ := Option.map_eq_some_iff.1 read
      cases made
      exact .bool false
    · obtain ⟨part, given, made⟩ := Option.map_eq_some_iff.1 read
      cases made
      exact .number (held_of_readNumber? given)

include readsItems readsValue in
theorem denoted_of_readItems? {cs rest : List Char} {items : List (JsonOf τ)}
    (read : readItems? (fuel + 1) cs = some (items, rest)) : ∀ v ∈ items, Denoted v := by
  simp only [readItems?, Option.bind_eq_bind, Option.bind_eq_some_iff] at read
  obtain ⟨⟨first, behind⟩, given, read⟩ := read
  split at read
  · cases read
    exact List.forall_mem_singleton.2 (readsValue given)
  · obtain ⟨⟨others, after⟩, more, made⟩ := Option.bind_eq_some_iff.1 read
    cases made
    exact List.forall_mem_cons.2 ⟨readsValue given, readsItems more⟩
  · cases read

include readsMembers readsValue in
theorem denoted_of_readMembers? {cs rest : List Char} {members : List (τ × JsonOf τ)}
    (read : readMembers? (fuel + 1) cs = some (members, rest)) :
    ∀ m ∈ members, Denoted m.2 := by
  simp only [readMembers?, Option.bind_eq_bind, Option.bind_eq_some_iff] at read
  obtain ⟨nameText, -, ⟨name, behind⟩, -, valueText, -, ⟨first, after⟩, given, read⟩ := read
  split at read
  · cases read
    exact List.forall_mem_singleton.2 (readsValue given)
  · obtain ⟨⟨others, after⟩, more, made⟩ := Option.bind_eq_some_iff.1 read
    cases made
    exact List.forall_mem_cons.2 ⟨readsValue given, readsMembers more⟩
  · cases read

end

/-- Whatever the three functions of the reader give can be read. -/
theorem denoted_of_read (fuel : Nat) :
    (∀ {cs rest : List Char} {v : JsonOf τ}, readValue? fuel cs = some (v, rest) → Denoted v) ∧
    (∀ {cs rest : List Char} {items : List (JsonOf τ)},
      readItems? fuel cs = some (items, rest) → ∀ v ∈ items, Denoted v) ∧
    (∀ {cs rest : List Char} {members : List (τ × JsonOf τ)},
      readMembers? fuel cs = some (members, rest) → ∀ m ∈ members, Denoted m.2) := by
  induction fuel with
  | zero =>
    refine ⟨?_, ?_, ?_⟩
    · intro cs rest v read
      cases read
    · intro cs rest items read
      cases read
    · intro cs rest members read
      cases read
  | succ fuel ih =>
    obtain ⟨value, items, members⟩ := ih
    exact ⟨denoted_of_readValue? items members, denoted_of_readItems? items value,
      denoted_of_readMembers? members value⟩

theorem denoted_of_parse? {text : String} {v : JsonOf τ} (read : parse? text = some v) :
    Denoted v := by
  simp only [parse?] at read
  split at read
  · rename_i value rest given
    split at read
    · cases read
      exact (denoted_of_read _).1 given
    · cases read
  · cases read

end Json

end BenchSettings
