/-
BenchSettings.Proofs.Json.Canonical — the canonical text of a value tells the
value.

Canonical form sorts the members of objects. It changes nothing else: the
items of arrays stay in place, and in an object every name is still there with
the same value under it (`Same`, `same_canonical`). So a canonical text, read
back, is the value that it was made from (`parse?_serialize`).

What is asked of the value (`Plain`) is what a text can tell, as in
`Legible`, without the order of members, since sorted members are arranged as a
reader lists them, and without the reserved name, which canonical form leaves
out.
-/
import BenchSettings.Proofs.Json.RoundTrip

namespace BenchSettings.Json

/-! ## 1. Values up to the order of members -/

/-- The same value, but for the order in which objects list their members. -/
inductive Same : Json → Json → Prop
  | refl (v : Json) : Same v v
  | array {xs ys : List Json} (length : xs.length = ys.length)
      (items : ∀ (i : Nat) (v w : Json), xs[i]? = some v → ys[i]? = some w → Same v w) :
      Same (.array xs) (.array ys)
  | object {ms ns : List (String × Json)}
      (names : ∀ name, name ∈ Named.names ms ↔ name ∈ Named.names ns)
      (values : ∀ name v w, Named.get? name ms = some v → Named.get? name ns = some w → Same v w) :
      Same (.object ms) (.object ns)

/-- A value whose canonical text gives it back. -/
inductive Plain : Json → Prop
  | null : Plain .null
  | bool (b : Bool) : Plain (.bool b)
  | number {n : Int} (exact : n.natAbs < 2 ^ Number.precision) : Plain (.number (.integer n))
  | string (s : String) : Plain (.string s)
  | array {items : List Json} (all : ∀ v ∈ items, Plain v) : Plain (.array items)
  | object {members : List (String × Json)} (distinct : (Named.names members).Nodup)
      (kept : Named.reserved ∉ Named.names members) (all : ∀ m ∈ members, Plain m.2) :
      Plain (.object members)

/-! ## 2. Canonical form -/

theorem canonicalItems_eq_map (items : List Json) : canonicalItems items = items.map canonical := by
  induction items with
  | nil => rfl
  | cons item rest ih => rw [canonicalItems, ih, List.map_cons]

theorem canonicalMembers_eq_map {members : List (String × Json)}
    (kept : Named.reserved ∉ Named.names members) :
    canonicalMembers members = members.map fun m => (m.1, m.2.canonical) := by
  induction members with
  | nil => rfl
  | cons member rest ih =>
    obtain ⟨name, value⟩ := member
    simp only [Named.names, List.map_cons, List.mem_cons, not_or] at kept
    rw [canonicalMembers, if_neg fun same => kept.1 same.symm, ih kept.2, List.map_cons]

theorem names_canonicalMembers {members : List (String × Json)}
    (kept : Named.reserved ∉ Named.names members) :
    Named.names (canonicalMembers members) = Named.names members := by
  rw [canonicalMembers_eq_map kept, Named.names, List.map_map]
  rfl

/-- The sorted members have the canonical forms of the values that were there. -/
theorem forall_mem_sortMembers {members : List (String × Json)} {P : Json → Prop}
    (kept : Named.reserved ∉ Named.names members) (all : ∀ m ∈ members, P m.2.canonical) :
    ∀ m ∈ sortMembers (canonicalMembers members), P m.2 := by
  intro m mem
  rw [(sortMembers_perm _).mem_iff, canonicalMembers_eq_map kept] at mem
  obtain ⟨n, there, rfl⟩ := List.mem_map.1 mem
  exact all n there

section

variable {members : List (String × Json)} (distinct : (Named.names members).Nodup)
  (kept : Named.reserved ∉ Named.names members)

include distinct kept

theorem nodup_names_sortMembers :
    (Named.names (sortMembers (canonicalMembers members))).Nodup := by
  have sorted := (sortMembers_perm (canonicalMembers members)).map Prod.fst
  rw [← names_canonicalMembers kept] at distinct
  exact sorted.symm.nodup distinct

/-- Under each name canonical form has the canonical form of the value that was there. -/
theorem get?_sortMembers (name : String) :
    Named.get? name (sortMembers (canonicalMembers members)) =
      (Named.get? name members).map canonical := by
  rw [Named.get?_of_perm (sortMembers_perm _) (nodup_names_sortMembers distinct kept),
    canonicalMembers_eq_map kept, Named.get?_map]

end

/-- Canonical form is the same value. -/
theorem same_canonical {v : Json} (h : Plain v) : Same v v.canonical := by
  induction h with
  | null => exact .refl _
  | bool b => exact .refl _
  | number exact => exact .refl _
  | string s => exact .refl _
  | @array items _ ih =>
    rw [canonical, canonicalItems_eq_map]
    refine .array (List.length_map canonical).symm ?_
    intro i v w there there'
    rw [List.getElem?_map, there] at there'
    cases there'
    exact ih v (List.mem_of_getElem? there)
  | @object members distinct kept _ ih =>
    have lookUp := get?_sortMembers distinct kept
    rw [canonical]
    refine .object ?_ ?_
    · intro name
      rw [Named.mem_names_iff, Named.mem_names_iff, lookUp, Option.isSome_map]
    · intro name v w there there'
      rw [lookUp, there] at there'
      cases there'
      exact ih _ ((Named.get?_eq_some_iff distinct).1 there)

/-- Canonical form can be told from its text. -/
theorem legible_canonical {v : Json} (h : Plain v) : Legible v.canonical := by
  induction h with
  | null => exact .null
  | bool b => exact .bool b
  | number exact => exact .number exact
  | string s => exact .string (proper_string s)
  | @array items _ ih =>
    rw [canonical, canonicalItems_eq_map]
    exact .array (List.forall_mem_map.2 ih)
  | @object members distinct kept _ ih =>
    rw [canonical]
    exact .object (nodup_names_sortMembers distinct kept)
      (arrange_arrange _) (fun m _ => proper_string m.1) (forall_mem_sortMembers kept ih)

/-- The canonical text of a value, read back, is its canonical form. -/
theorem parse?_serialize {v : Json} (h : Plain v) : parse? v.serialize = some v.canonical :=
  parse?_toText (legible_canonical h)

end BenchSettings.Json
