/-
BenchSettings.Environment — variables by name.

An environment lists variable names, each at most once. A name may be listed
without a text; that is the same as not being listed for everything that
reads the variable (`get?`), and it never hides what another environment
says. Environments are laid over one another, the later on top (`merge`), and
the lookup laws say what then shows through: `get?_overlay` for one layer,
`get?_merge` for any number.

The name `__proto__` is reserved. It can stand in an environment that is
given, but no layer passes it on.
-/
import BenchSettings.Named

namespace BenchSettings

/-- Variable names, each listed once, with the text it is set to if it is set. -/
structure Environment where
  entries : List (String × Option String)
  distinct : (Named.names entries).Nodup

namespace Environment

def empty : Environment := ⟨[], List.nodup_nil⟩

/-- The text of a variable, if it is set. -/
def get? (env : Environment) (name : String) : Option String :=
  (Named.get? name env.entries).join

/-- Lists a variable with a new state: set to a text, or unset. -/
def set (env : Environment) (name : String) (text : Option String) : Environment :=
  ⟨Named.put name text env.entries, Named.nodup_put env.distinct name text⟩

/-- The environment that a list of states leaves, the last one for each name. -/
def ofList (pairs : List (String × Option String)) : Environment :=
  pairs.foldl (fun env (name, text) => env.set name text) empty

def toList (env : Environment) : List (String × String) :=
  env.entries.filterMap fun (name, text) => text.map (name, ·)

/-! ## 1. Layers -/

/-- Passes one listed variable on, if it is set and its name may be passed on. -/
def pass (base : Environment) (entry : String × Option String) : Environment :=
  match entry with
  | (_, none) => base
  | (name, some text) => if name = Named.reserved then base else base.set name (some text)

def overlay (base layer : Environment) : Environment := layer.entries.foldl pass base

/-- Lays environments over one another, the last on top. -/
def merge (layers : List Environment) : Environment := layers.foldl overlay empty

/-! ## 2. What a lookup finds -/

@[simp] theorem get?_empty (name : String) : empty.get? name = none := rfl

theorem get?_set (env : Environment) (name query : String) (text : Option String) :
    (env.set name text).get? query = if query = name then text else env.get? query := by
  simp only [get?, set, Named.get?_put]
  by_cases h : query = name <;> simp [h]

/-- Of a list of states, the last one for a name counts. -/
theorem get?_ofList (pairs : List (String × Option String)) (name : String) :
    (ofList pairs).get? name = (Named.get? name pairs.reverse).join := by
  have general : ∀ (states : List (String × Option String)) (base : Environment),
      (states.foldl (fun env (name, text) => env.set name text) base).get? name =
        (Named.get? name states.reverse).getD (base.get? name) := by
    intro states
    induction states with
    | nil => simp
    | cons state rest ih =>
      intro base
      obtain ⟨other, text⟩ := state
      rw [List.foldl_cons, ih, List.reverse_cons, Named.get?_append, get?_set]
      cases Named.get? name rest.reverse with
      | some found => rfl
      | none => by_cases h : name = other <;> simp [Named.get?, h, eq_comm]
  rw [ofList, general]
  cases Named.get? name pairs.reverse <;> rfl

theorem get?_pass (base : Environment) (name query : String) (text : Option String) :
    (base.pass (name, text)).get? query =
      if query = name ∧ name ≠ Named.reserved then text.or (base.get? query)
      else base.get? query := by
  cases text with
  | none => simp [pass]
  | some t =>
    by_cases reserved : name = Named.reserved
    · simp [pass, reserved]
    · by_cases h : query = name <;> simp [pass, reserved, get?_set, h]

/-- What shows through one layer: its own text, and the base where it has none. -/
theorem get?_overlay (base layer : Environment) {name : String} (h : name ≠ Named.reserved) :
    (base.overlay layer).get? name = (layer.get? name).or (base.get? name) := by
  obtain ⟨entries, distinct⟩ := layer
  simp only [overlay, get?]
  induction entries generalizing base with
  | nil => simp
  | cons e rest ih =>
    obtain ⟨other, text⟩ := e
    have parts : other ∉ Named.names rest ∧ (Named.names rest).Nodup := by
      simpa [Named.names] using distinct
    rw [List.foldl_cons, ih _ parts.2]
    have step := get?_pass base other name text
    simp only [get?] at step
    rw [step]
    by_cases same : name = other
    · subst same
      have gone : Named.get? name rest = none := by
        simpa [Named.mem_names_iff] using parts.1
      simp [Named.get?, gone, h]
    · have same' : ¬other = name := fun e => same e.symm
      simp [Named.get?, same, same']

/-- The text a stack of layers shows for a name: that of the last layer that sets it. -/
theorem get?_merge (layers : List Environment) {name : String} (h : name ≠ Named.reserved) :
    (merge layers).get? name = (layers.reverse.findSome? fun layer => layer.get? name) := by
  have general : ∀ (ls : List Environment) (base : Environment),
      (ls.foldl overlay base).get? name =
        (ls.reverse.findSome? fun layer => layer.get? name).or (base.get? name) := by
    intro ls
    induction ls with
    | nil => simp
    | cons l rest ih =>
      intro base
      rw [List.foldl_cons, ih, get?_overlay base l h]
      simp [List.findSome?_append, Option.or_assoc]
  simpa [merge] using general layers empty

/-! ## 3. What is listed -/

/-- A listed text is found. -/
theorem get?_of_mem {env : Environment} {name : String} {text : Option String}
    (mem : (name, text) ∈ env.entries) : env.get? name = text := by
  rw [get?, (Named.get?_eq_some_iff env.distinct).2 mem, Option.join_some]

theorem get?_eq_some_iff (env : Environment) (name text : String) :
    env.get? name = some text ↔ (name, some text) ∈ env.entries := by
  rw [get?, Option.join_eq_some_iff, Named.get?_eq_some_iff env.distinct]

/-- A list of states is listed with the last of them for each name, in the place of the first. -/
theorem entries_ofList (pairs : List (String × Option String)) :
    (ofList pairs).entries = Named.ofPairs pairs :=
  (List.foldl_hom entries fun _ _ => rfl).symm

theorem mem_toList {env : Environment} {name text : String} :
    (name, text) ∈ env.toList ↔ (name, some text) ∈ env.entries := by
  simp only [toList, List.mem_filterMap, Option.map_eq_some_iff, Prod.mk.injEq]
  constructor
  · rintro ⟨⟨other, state⟩, there, _, set, rfl, rfl⟩
    rwa [← set]
  · exact fun there => ⟨_, there, text, rfl, rfl, rfl⟩

theorem nodup_names_toList (env : Environment) : (Named.names env.toList).Nodup := by
  have distinct : env.entries.Pairwise fun a b => a.1 ≠ b.1 := List.pairwise_map.1 env.distinct
  refine List.pairwise_map.2 (distinct.filterMap _ ?_)
  intro a b apart x hx y hy
  obtain ⟨_, -, rfl⟩ := Option.map_eq_some_iff.1 hx
  obtain ⟨_, -, rfl⟩ := Option.map_eq_some_iff.1 hy
  exact apart

theorem get?_toList (env : Environment) (name : String) :
    Named.get? name env.toList = env.get? name := by
  ext text
  rw [Named.get?_eq_some_iff env.nodup_names_toList, mem_toList, get?_eq_some_iff]

end Environment

end BenchSettings
