/-
BenchSettings.Named — values listed by name.

A list of pairs serves as a small dictionary that remembers the order in
which its names were first written. `put` replaces the value of a name that
is there and appends one that is not, so distinct names stay distinct and the
order of the others never changes; `get?` looks a name up. Environments and
the members of JSON objects are both listed this way. Names are of any type
that tells equal ones apart. While names are distinct, the order matters to a
reader of the list only, and not to what is found in it (`get?_of_perm`).
-/

namespace BenchSettings.Named

variable {κ α : Type} [DecidableEq κ]

/-- The one name that is never passed on: no layer of an environment and no member of a written
object carries it. -/
def reserved : String := "__proto__"

def names (entries : List (κ × α)) : List κ := entries.map Prod.fst

/-- The value listed under a name. -/
def get? (name : κ) : List (κ × α) → Option α
  | [] => none
  | (other, value) :: rest => if other = name then some value else get? name rest

/-- Lists a value under a name, in the name's old place if it has one and last otherwise. -/
def put (name : κ) (value : α) : List (κ × α) → List (κ × α)
  | [] => [(name, value)]
  | (other, old) :: rest =>
    if other = name then (other, value) :: rest else (other, old) :: put name value rest

/-- Puts pairs one after the other: of several values for one name the last stays, where the first
stood. -/
def ofPairs (pairs : List (κ × α)) : List (κ × α) :=
  pairs.foldl (fun entries (name, value) => put name value entries) []

/-! ## 1. Looking up -/

@[simp] theorem get?_nil (name : κ) : get? name ([] : List (κ × α)) = none := rfl

/-- What is listed first is found first. -/
theorem get?_append (name : κ) (entries more : List (κ × α)) :
    get? name (entries ++ more) = (get? name entries).or (get? name more) := by
  induction entries with
  | nil => simp
  | cons e rest ih =>
    obtain ⟨other, value⟩ := e
    by_cases h : other = name <;> simp [get?, h, ih]

theorem get?_put (entries : List (κ × α)) (name query : κ) (value : α) :
    get? query (put name value entries) =
      if query = name then some value else get? query entries := by
  induction entries with
  | nil => simp [put, get?, eq_comm]
  | cons e rest ih =>
    obtain ⟨other, old⟩ := e
    by_cases same : other = name
    · subst same
      by_cases h : other = query
      · simp [put, get?, h]
      · have h' : ¬query = other := fun e => h e.symm
        simp [put, get?, h, h']
    · by_cases h : other = query
      · subst h; simp [put, get?, same]
      · simp [put, get?, same, h, ih]

theorem mem_names_iff (entries : List (κ × α)) (name : κ) :
    name ∈ names entries ↔ (get? name entries).isSome := by
  induction entries with
  | nil => simp [names]
  | cons e rest ih =>
    obtain ⟨other, value⟩ := e
    by_cases h : other = name
    · simp [names, get?, h]
    · have h' : ¬name = other := fun e => h e.symm
      simpa [names, get?, h, h'] using ih

/-! ## 2. Names stay distinct -/

theorem mem_names_put (entries : List (κ × α)) (name query : κ) (value : α) :
    query ∈ names (put name value entries) ↔ query = name ∨ query ∈ names entries := by
  rw [mem_names_iff, mem_names_iff, get?_put]
  by_cases h : query = name <;> simp [h]

theorem nodup_put {entries : List (κ × α)} (distinct : (names entries).Nodup) (name : κ)
    (value : α) : (names (put name value entries)).Nodup := by
  induction entries with
  | nil => simp [put, names]
  | cons e rest ih =>
    obtain ⟨other, old⟩ := e
    have parts : other ∉ names rest ∧ (names rest).Nodup := by simpa [names] using distinct
    by_cases same : other = name
    · simpa [put, same, names] using distinct
    · have fresh : other ∉ names (put name value rest) := by
        rw [mem_names_put]; simp [same, parts.1]
      have := ih parts.2
      simp only [put, same, if_false]
      exact List.nodup_cons.2 ⟨fresh, this⟩

theorem nodup_ofPairs (pairs : List (κ × α)) : (names (ofPairs pairs)).Nodup := by
  have listed : ∀ (pairs before : List (κ × α)), (names before).Nodup →
      (names (pairs.foldl (fun entries (name, value) => put name value entries) before)).Nodup := by
    intro pairs
    induction pairs with
    | nil => exact fun _ distinct => distinct
    | cons pair rest ih => exact fun before distinct => ih _ (nodup_put distinct _ _)
  exact listed pairs [] List.nodup_nil

/-! ## 3. What is listed -/

theorem mem_put {entries : List (κ × α)} {name : κ} {value : α} {e : κ × α}
    (mem : e ∈ put name value entries) : e = (name, value) ∨ e ∈ entries := by
  induction entries with
  | nil => exact .inl (List.mem_singleton.1 mem)
  | cons first rest ih =>
    obtain ⟨other, old⟩ := first
    rw [put] at mem
    split at mem
    · rename_i same
      rcases List.mem_cons.1 mem with rfl | later
      · exact .inl (by rw [same])
      · exact .inr (List.mem_cons_of_mem _ later)
    · rcases List.mem_cons.1 mem with rfl | later
      · exact .inr List.mem_cons_self
      · exact (ih later).imp_right (List.mem_cons_of_mem _)

/-- Nothing is listed that was not put. -/
theorem mem_of_mem_ofPairs {pairs : List (κ × α)} {e : κ × α} (mem : e ∈ ofPairs pairs) :
    e ∈ pairs := by
  have listed : ∀ (pairs before : List (κ × α)),
      e ∈ pairs.foldl (fun entries (name, value) => put name value entries) before →
        e ∈ pairs ∨ e ∈ before := by
    intro pairs
    induction pairs with
    | nil => exact fun _ mem => .inr mem
    | cons pair rest ih =>
      intro before mem
      rcases ih _ mem with later | now
      · exact .inl (List.mem_cons_of_mem _ later)
      · rcases mem_put now with rfl | old
        · exact .inl List.mem_cons_self
        · exact .inr old
  simpa using listed pairs [] mem

/-! ## 4. Listings of distinct names -/

/-- A new name is listed last. -/
theorem put_of_not_mem {entries : List (κ × α)} {name : κ} (fresh : name ∉ names entries)
    (value : α) : put name value entries = entries ++ [(name, value)] := by
  induction entries with
  | nil => rfl
  | cons e rest ih =>
    obtain ⟨other, old⟩ := e
    simp only [names, List.map_cons, List.mem_cons, not_or] at fresh
    rw [put, if_neg fun same => fresh.1 same.symm, ih fresh.2, List.cons_append]

/-- Pairs of distinct names are listed as they came. -/
theorem ofPairs_of_nodup {pairs : List (κ × α)} (distinct : (names pairs).Nodup) :
    ofPairs pairs = pairs := by
  have listed : ∀ (before pairs : List (κ × α)), (names (before ++ pairs)).Nodup →
      pairs.foldl (fun entries (name, value) => put name value entries) before =
        before ++ pairs := by
    intro before pairs
    induction pairs generalizing before with
    | nil => simp
    | cons pair rest ih =>
      obtain ⟨name, value⟩ := pair
      intro distinct
      have fresh : name ∉ names before := by
        simp only [names, List.map_append, List.map_cons, List.nodup_append] at distinct
        exact fun mem => distinct.2.2 name mem name List.mem_cons_self rfl
      simp only [List.foldl_cons, put_of_not_mem fresh]
      rw [ih _ (by simpa using distinct), List.append_assoc, List.singleton_append]
  exact listed [] pairs distinct

theorem get?_eq_some_iff {entries : List (κ × α)} (distinct : (names entries).Nodup) {name : κ}
    {value : α} : get? name entries = some value ↔ (name, value) ∈ entries := by
  induction entries with
  | nil => simp
  | cons e rest ih =>
    obtain ⟨other, old⟩ := e
    have parts : other ∉ names rest ∧ (names rest).Nodup := by simpa [names] using distinct
    by_cases same : other = name
    · subst same
      have once : (other, value) ∉ rest := fun mem => parts.1 (List.mem_map_of_mem mem)
      simp [get?, once, eq_comm]
    · have apart : ¬name = other := fun e => same e.symm
      simp [get?, same, apart, ih parts.2]

/-- A name that is listed with one value only is found with it. -/
theorem get?_of_unique {entries : List (κ × α)} {name : κ}
    {value : α} (mem : (name, value) ∈ entries)
    (unique : ∀ other, (name, other) ∈ entries → other = value) :
    get? name entries = some value := by
  induction entries with
  | nil => cases mem
  | cons e rest ih =>
    obtain ⟨first, old⟩ := e
    by_cases same : first = name
    · subst same
      rw [get?, if_pos rfl, unique old List.mem_cons_self]
    · rw [get?, if_neg same]
      refine ih ?_ fun other later => unique other (List.mem_cons_of_mem _ later)
      rcases List.mem_cons.1 mem with now | later
      · cases now
        exact absurd rfl same
      · exact later

/-- Distinct names are found in whatever order they are listed. -/
theorem get?_of_perm {entries others : List (κ × α)} (same : entries.Perm others)
    (distinct : (names entries).Nodup) (name : κ) : get? name entries = get? name others := by
  have distinct' : (names others).Nodup := (same.map Prod.fst).nodup distinct
  ext value
  rw [get?_eq_some_iff distinct, get?_eq_some_iff distinct', same.mem_iff]

/-- Looking up after a change of every value. -/
theorem get?_map {β : Type} (f : α → β) (entries : List (κ × α)) (name : κ) :
    get? name (entries.map fun e => (e.1, f e.2)) = (get? name entries).map f := by
  induction entries with
  | nil => rfl
  | cons e rest ih =>
    obtain ⟨other, value⟩ := e
    by_cases same : other = name <;> simp [get?, same, ih]

end BenchSettings.Named
