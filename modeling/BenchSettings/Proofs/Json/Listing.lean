/-
BenchSettings.Proofs.Json.Listing — the order in which an object lists its
members.

An object does not list its members as they were written. The ones whose names
are array indices come first, by their numbers, and only the others stay as
they were (`Listed`, `listed_arrange`). A name is an index if it is the shortest
decimal text of a number that is not too great (`IndexOf`), so no two names have
one number.

Every object that a text denotes was made of written members in this way
(`exists_written_of_parse?`).
-/
import BenchSettings.Proofs.Json.Denoted
import BenchSettings.Proofs.Json.RoundTrip

namespace BenchSettings.Json

open Text (Loose Sign Spelled)

/-! ## 1. Indices -/

/-- A name that is the number of an array element, as short as can be. -/
def IndexOf (n : Nat) (name : Loose) : Prop :=
  n ≤ 4294967294 ∧ name = Loose.ofString (Text.decimal n)

theorem index?_eq_some_iff {name : Loose} {n : Nat} : index? name = some n ↔ IndexOf n name := by
  have plain : ('\ufffd' : Char) ∉ (Text.decimal n).toList := by
    intro mem
    exact absurd (Text.isDigit_of_mem_decimalDigits (n := n) (by simpa [Text.decimal] using mem))
      (by decide)
  have chars : shown name = Text.decimalDigits n ↔ name = Loose.ofString (Text.decimal n) := by
    constructor
    · intro same
      exact Loose.eq_ofString_of_shown (congrArg String.ofList same) plain
    · rintro rfl
      exact (shown_string (Text.decimal n)).trans (by simp [Text.decimal])
  rw [IndexOf, ← chars, index?]
  constructor
  · intro found
    split at found
    · rename_i shortest
      obtain rfl := Option.some.inj found
      exact ⟨shortest.2, shortest.1.symm⟩
    · cases found
  · rintro ⟨few, same⟩
    rw [same, Text.digitsValue_decimalDigits]
    exact if_pos ⟨rfl, few⟩

def Indexed (name : Loose) : Prop := ∃ n, IndexOf n name

theorem isSome_index?_iff {name : Loose} : (index? name).isSome = true ↔ Indexed name := by
  simp only [Option.isSome_iff_exists, index?_eq_some_iff, Indexed]

instance (name : Loose) : Decidable (Indexed name) := decidable_of_iff _ isSome_index?_iff

theorem isNone_index?_eq (name : Loose) : (index? name).isNone = decide (¬Indexed name) := by
  rw [decide_not, decide_eq_decide.2 isSome_index?_iff.symm, Bool.decide_coe]
  exact (Option.not_isSome (index? name)).symm

/-- Different names have different numbers. -/
theorem IndexOf.eq {a b : Loose} {n : Nat} (left : IndexOf n a) (right : IndexOf n b) : a = b :=
  left.2.trans right.2.symm

/-! ## 2. The order of members -/

section

variable {α : Type}

/-- Members as an object lists the ones that were written: the indices before all others, by their
numbers, and the others as they came. -/
structure Listed (written members : List (Loose × α)) : Prop where
  same : members.Perm written
  indices : members.Pairwise fun a b => ∀ n, IndexOf n b.1 → ∃ m < n, IndexOf m a.1
  others : (members.filter fun m : Loose × α => decide (¬Indexed m.1)) =
    written.filter fun m : Loose × α => decide (¬Indexed m.1)

variable {written : List (Loose × α)}

theorem indexed_of_mem_indexed {m : Loose × α} (mem : m ∈ indexed written) : Indexed m.1 :=
  isSome_index?_iff.1 (isSome_of_mem_indexed mem)

theorem not_indexed_of_mem_unindexed {m : Loose × α} (mem : m ∈ unindexed written) :
    ¬Indexed m.1 := by
  have other := isNone_of_mem_unindexed mem
  rwa [isNone_index?_eq, decide_eq_true_eq] at other

theorem pairwise_indexed (distinct : (Named.names written).Nodup) :
    (indexed written).Pairwise fun a b => ∀ n, IndexOf n b.1 → ∃ m < n, IndexOf m a.1 := by
  have apart : (indexed written).Pairwise fun a b => a.1 ≠ b.1 := by
    refine List.Pairwise.perm ?_ (indexed_perm written).symm fun h => h.symm
    exact (List.pairwise_map.1 distinct).filter _
  have sorted := pairwise_indexLe_indexed written
  refine (sorted.and apart).imp_of_mem fun {a b} ha _ ⟨le, ne⟩ n hn => ?_
  obtain ⟨m, hm⟩ := indexed_of_mem_indexed ha
  have le' : m ≤ n := by
    simpa [indexLe, index?_eq_some_iff.2 hm, index?_eq_some_iff.2 hn] using le
  refine ⟨m, Nat.lt_of_le_of_ne le' ?_, hm⟩
  rintro rfl
  exact ne (hm.eq hn)

theorem unindexed_eq (written : List (Loose × α)) :
    unindexed written = written.filter fun m => decide (¬Indexed m.1) := by
  simp only [unindexed, isNone_index?_eq]

theorem listed_arrange (distinct : (Named.names written).Nodup) :
    Listed written (arrange written) where
  same := arrange_perm written
  indices := by
    refine List.pairwise_append.2 ⟨pairwise_indexed distinct, ?_, ?_⟩
    · exact List.pairwise_of_forall_mem_list fun a _ b hb n hn =>
        absurd ⟨n, hn⟩ (not_indexed_of_mem_unindexed hb)
    · exact fun a _ b hb n hn => absurd ⟨n, hn⟩ (not_indexed_of_mem_unindexed hb)
  others := by rw [← unindexed_eq, unindexed_arrange, unindexed_eq]

end

/-! ## 3. Objects that were read -/

theorem ofWritten_nil : ofWritten ([] : List (Loose × JsonOf Loose)) = .object [] := by
  simp [ofWritten, Named.ofPairs, arrange, indexed, unindexed]

/-- The members behind the brace that opens an object, as they are written there. -/
def readBody? (fuel : Nat) (cs : List Char) : Option (List (Loose × JsonOf Loose) × List Char) :=
  match skipGap cs with
  | '\x7d' :: after => some ([], after)
  | members => readMembers? fuel members

theorem readBody?_of_filled {cs : List Char} (filled : ∀ after, skipGap cs ≠ '\x7d' :: after)
    (fuel : Nat) : readBody? fuel cs = readMembers? fuel (skipGap cs) := by
  rw [readBody?]
  split
  · rename_i after closed
    exact absurd closed (filled after)
  · rfl

theorem readValue?_brace (fuel : Nat) (cs : List Char) :
    readValue? (fuel + 1) ('\x7b' :: cs) =
      (readBody? fuel cs).map fun (members, after) => (ofWritten members, after) := by
  by_cases closed : ∃ after, skipGap cs = '\x7d' :: after
  · obtain ⟨after, closed⟩ := closed
    simp [readValue?, readBody?, closed, ofWritten_nil]
  · have filled : ∀ after, skipGap cs ≠ '\x7d' :: after := fun after same => closed ⟨after, same⟩
    rw [readValue?_object filled, readBody?_of_filled filled]

/-- Only what starts with a brace is an object. -/
theorem eq_brace_of_readValue? {fuel : Nat} {cs after : List Char}
    {members : List (Loose × JsonOf Loose)}
    (read : readValue? (fuel + 1) cs = some (.object members, after)) :
    ∃ rest, cs = '\x7b' :: rest := by
  cases cs with
  | nil => cases read
  | cons c rest =>
    by_cases brace : c = '\x7b'
    · exact ⟨rest, by rw [brace]⟩
    exfalso
    simp only [readValue?, if_neg brace] at read
    split at read
    · obtain ⟨part, -, made⟩ := Option.map_eq_some_iff.1 read
      cases made
    split at read
    · split at read
      · cases read
      · obtain ⟨part, -, made⟩ := Option.map_eq_some_iff.1 read
        cases made
    repeat' split at read
    all_goals
      obtain ⟨part, -, made⟩ := Option.map_eq_some_iff.1 read
      cases made

/-- The members of the object that a text holds, as they are written there. -/
def writtenMembers? (text : String) : Option (List (Loose × JsonOf Loose)) :=
  match skipGap text.toList with
  | '\x7b' :: rest => (readBody? (2 * text.toList.length + 1) rest).map Prod.fst
  | _ => none

/-- An object that a text denotes is made of the members that are written there. -/
theorem exists_written_of_parse? {text : String} {members : List (Loose × JsonOf Loose)}
    (read : parse? text = some (.object members)) :
    ∃ written, writtenMembers? text = some written ∧ ofWritten written = .object members := by
  simp only [parse?] at read
  split at read
  · rename_i value rest given
    split at read
    · cases read
      obtain ⟨body, opened⟩ := eq_brace_of_readValue? given
      rw [opened, readValue?_brace] at given
      obtain ⟨⟨written, after⟩, listed, made⟩ := Option.map_eq_some_iff.1 given
      refine ⟨written, ?_, (Prod.mk.inj made).1⟩
      rw [writtenMembers?, opened]
      exact congrArg (Option.map Prod.fst) listed
    · cases read
  · cases read

end BenchSettings.Json
