/-
BenchSettings.Json.Basic — JSON values and the order of their members.

A value is the tree that a JSON text denotes, over a type of texts: its
strings and names are proper texts where values are printed and checked
(`Json`), and loose ones where a file is read whose names can be anything. The
members of an object are listed by name in the order in which they are looked
through: names that are array indices (`0`, `1`, `10`, not `01`) come first, by
number, and the others after them, as they came (`arrange`).

The canonical form of a value (`canonical`) leaves out the reserved name and
puts the members of every object in it together anew, in the order of the units
of their names. The new object arranges them as any other does, so the indices
still come first (`sortMembers`). What order comes of the two steps is said in
`Proofs.Json.Order`.

The laws beside the definitions say that nothing but the order of members
changes (`arrange_perm`, `sortMembers_perm`), that arranged members stay where
they are (`arrange_arrange`) and that sorting is what its name says
(`pairwise_sortByUnits`).
-/
import BenchSettings.Named
import BenchSettings.Number.Basic
import BenchSettings.Text.Digits
import BenchSettings.Text.Loose

namespace BenchSettings

open Text (Sign Spelled)

/-- A JSON value whose strings and names are texts of some type. -/
inductive JsonOf (τ : Type) where
  | null
  | bool (value : Bool)
  | number (value : Number)
  | string (text : τ)
  | array (items : List (JsonOf τ))
  | object (members : List (τ × JsonOf τ))
  deriving Inhabited

abbrev Json := JsonOf String

namespace Json

variable {τ : Type} [Spelled τ]

/-! ## 1. Names that are array indices -/

def maxIndex : Nat := 4294967294

/-- The characters that are shown of a name. -/
def shown (name : τ) : List Char := (Spelled.signs name).map Sign.shown

@[simp] theorem shown_string (name : String) : shown name = name.toList := by
  simp [shown, Spelled.signs, Function.comp_def, Sign.shown]

/-- The number of a name that is an array index: its shortest decimal text, not too great. -/
def index? (name : τ) : Option Nat :=
  if Text.decimalDigits (Text.digitsValue (shown name)) = shown name ∧
      Text.digitsValue (shown name) ≤ maxIndex then
    some (Text.digitsValue (shown name))
  else none

section

variable {α : Type}

/-- Whether the number of one name is not above that of another. -/
def indexLe (a b : τ × α) : Bool := decide ((index? a.1).getD 0 ≤ (index? b.1).getD 0)

/-- The members that are named by array indices, by their numbers. -/
def indexed (members : List (τ × α)) : List (τ × α) :=
  (members.filter fun m => (index? m.1).isSome).mergeSort indexLe

/-- The members with other names, as they came. -/
def unindexed (members : List (τ × α)) : List (τ × α) :=
  members.filter fun m => (index? m.1).isNone

/-- Members in the order in which an object lists them. -/
def arrange (members : List (τ × α)) : List (τ × α) := indexed members ++ unindexed members

theorem indexed_perm (members : List (τ × α)) :
    (indexed members).Perm (members.filter fun m => (index? m.1).isSome) :=
  List.mergeSort_perm _ _

theorem isSome_of_mem_indexed {members : List (τ × α)} {m : τ × α} (mem : m ∈ indexed members) :
    (index? m.1).isSome = true :=
  (List.mem_filter.1 ((indexed_perm members).mem_iff.1 mem)).2

theorem isNone_of_mem_unindexed {members : List (τ × α)} {m : τ × α}
    (mem : m ∈ unindexed members) : (index? m.1).isNone = true :=
  (List.mem_filter.1 mem).2

theorem pairwise_indexLe_indexed (members : List (τ × α)) :
    (indexed members).Pairwise fun a b => indexLe a b = true := by
  refine List.pairwise_mergeSort ?_ ?_ _
  · intro a b c first second
    simp only [indexLe, decide_eq_true_eq] at *
    omega
  · intro a b
    simp only [indexLe, Bool.or_eq_true, decide_eq_true_eq]
    omega

/-- Arranging members only puts them in another order. -/
theorem arrange_perm (members : List (τ × α)) : (arrange members).Perm members := by
  have parts := List.filter_append_perm (fun m : τ × α => (index? m.1).isSome) members
  refine (List.Perm.append_right _ (indexed_perm members)).trans ?_
  simpa [unindexed] using parts

theorem unindexed_arrange (members : List (τ × α)) :
    unindexed (arrange members) = unindexed members := by
  have front : unindexed (indexed members) = [] := by
    refine List.filter_eq_nil_iff.2 fun m mem => ?_
    simp [Option.isSome_iff_ne_none.1 (isSome_of_mem_indexed mem)]
  have back : unindexed (unindexed members) = unindexed members :=
    List.filter_eq_self.2 fun m mem => isNone_of_mem_unindexed mem
  rw [arrange, unindexed, List.filter_append, ← unindexed, ← unindexed, front, back,
    List.nil_append]

theorem indexed_arrange (members : List (τ × α)) : indexed (arrange members) = indexed members := by
  have front : (indexed members).filter (fun m => (index? m.1).isSome) = indexed members :=
    List.filter_eq_self.2 fun m mem => isSome_of_mem_indexed mem
  have back : (unindexed members).filter (fun m => (index? m.1).isSome) = [] := by
    refine List.filter_eq_nil_iff.2 fun m mem => ?_
    simp [Option.isNone_iff_eq_none.1 (isNone_of_mem_unindexed mem)]
  rw [indexed, arrange, List.filter_append, front, back, List.append_nil]
  exact List.mergeSort_of_pairwise (pairwise_indexLe_indexed members)

/-- Arranged members stay where they are. -/
theorem arrange_arrange (members : List (τ × α)) : arrange (arrange members) = arrange members := by
  rw [arrange, indexed_arrange, unindexed_arrange, ← arrange]

end

/-- The object that written members make: of several members with one name the last counts, in the
place of the first. -/
def ofWritten [DecidableEq τ] (members : List (τ × JsonOf τ)) : JsonOf τ :=
  .object (arrange (Named.ofPairs members))

def member? [DecidableEq τ] (name : τ) : JsonOf τ → Option (JsonOf τ)
  | .object members => Named.get? name members
  | _ => none

/-! ## 2. Canonical form -/

section

variable {α : Type}

/-- Whether the units of one name do not come after those of another. -/
def unitsLe (a b : String × α) : Bool := (Text.compareUnits a.1 b.1).isLE

def sortByUnits (members : List (String × α)) : List (String × α) := members.mergeSort unitsLe

/-- Members as an object lists them that gets them in the order of their units. -/
def sortMembers (members : List (String × α)) : List (String × α) := arrange (sortByUnits members)

theorem pairwise_sortByUnits (members : List (String × α)) :
    (sortByUnits members).Pairwise fun a b => unitsLe a b = true := by
  refine List.pairwise_mergeSort ?_ ?_ members
  · intro a b c first second
    exact Std.TransCmp.isLE_trans first second
  · intro a b
    have swapped : Text.compareUnits b.1 a.1 = (Text.compareUnits a.1 b.1).swap :=
      Std.OrientedCmp.eq_swap
    rw [unitsLe, unitsLe, swapped]
    cases Text.compareUnits a.1 b.1 <;> rfl

theorem sortByUnits_perm (members : List (String × α)) : (sortByUnits members).Perm members :=
  List.mergeSort_perm _ _

theorem sortMembers_perm (members : List (String × α)) : (sortMembers members).Perm members :=
  (arrange_perm _).trans (sortByUnits_perm members)

end

mutual

/-- The value with the members of every object sorted and reserved ones left out. -/
def canonical : Json → Json
  | .null => .null
  | .bool b => .bool b
  | .number n => .number n
  | .string s => .string s
  | .array items => .array (canonicalItems items)
  | .object members => .object (sortMembers (canonicalMembers members))
termination_by structural v => v

def canonicalItems : List Json → List Json
  | [] => []
  | item :: rest => canonical item :: canonicalItems rest
termination_by structural items => items

def canonicalMembers : List (String × Json) → List (String × Json)
  | [] => []
  | (name, value) :: rest =>
    if name = Named.reserved then canonicalMembers rest
    else (name, canonical value) :: canonicalMembers rest
termination_by structural members => members

end

end Json

end BenchSettings
