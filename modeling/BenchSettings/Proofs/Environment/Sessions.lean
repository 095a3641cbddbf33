/-
BenchSettings.Proofs.Environment.Sessions — layers one at a time, and all at
once.

A session lays down one layer after the other, and each time over what the
layers before have left. `layers_at_once` says that nothing depends on the
steps in between: after each of them the environment, what it loads and the
table of the run are those of all layers so far, merged at once. Stacks can be
cut anywhere and the last layer can be laid down again, and what comes out is
always said by the layers alone: the last of them that sets a name decides
(`LastSets`), a text that is empty is a text, and a layer that lists a name
without a text has no say.
-/
import BenchSettings.Proofs.Environment.Merging
import BenchSettings.Session

namespace BenchSettings.Session

open Environment (merge LastSets)

/-! ## 1. One layer at a time -/

/-- After each layer there is what all layers so far leave. -/
theorem getElem?_environments (before layers : List Environment) {k : Nat}
    (there : k < layers.length) :
    (environments (merge before) layers)[k]? = some (merge (before ++ layers.take (k + 1))) := by
  induction layers generalizing before k with
  | nil => exact absurd there (Nat.not_lt_zero k)
  | cons layer rest ih =>
    rw [environments, Environment.merge_pair]
    cases k with
    | zero => rfl
    | succ k =>
      rw [List.getElem?_cons_succ, ih (before ++ [layer]) (Nat.lt_of_succ_lt_succ there),
        List.append_assoc, List.singleton_append, List.take_succ_cons]

theorem getElem?_steps (layers : List Environment) {k : Nat} (there : k < layers.length) :
    (steps layers)[k]? = some (Resolved.ofEnvironment (merge (layers.take (k + 1)))) := by
  have left : (environments .empty layers)[k]? = some (merge (layers.take (k + 1))) :=
    getElem?_environments [] layers there
  rw [steps, List.getElem?_map, left, Option.map_some]

theorem lt_length_of_getElem?_steps {layers : List Environment} {k : Nat} {r : Resolved}
    (shown : (steps layers)[k]? = some r) : k < layers.length := by
  rw [← length_steps]
  exact (List.getElem?_eq_some_iff.1 shown).1

/-- What a step shows is made of all layers so far. -/
theorem eq_of_getElem?_steps {layers : List Environment} {k : Nat} {r : Resolved}
    (shown : (steps layers)[k]? = some r) :
    r = Resolved.ofEnvironment (merge (layers.take (k + 1))) := by
  rw [getElem?_steps layers (lt_length_of_getElem?_steps shown)] at shown
  exact (Option.some.inj shown).symm

/-- More layers set more names. -/
theorem isSome_get?_merge_of_subset {layers more : List Environment} (subset : layers ⊆ more)
    {name : String} (set : ((merge layers).get? name).isSome = true) :
    ((merge more).get? name).isSome = true := by
  rw [Environment.isSome_get?_merge_iff] at set ⊢
  obtain ⟨kept, layer, mem, there⟩ := set
  exact ⟨kept, layer, subset mem, there⟩

/-! ## 2. All layers at once -/

/-- Layers show for each name the text of the last of them that sets it, and list no name that none
of them sets; the reserved name is never shown. Hence they can be merged part by part, and the last
once more, to the same environment; and a session, which merges them one at a time, shows after each
of them what merging all so far gives, so that a name stays set once it is. -/
theorem layers_at_once (layers : List Environment) :
    (∀ name text, (merge layers).get? name = some text ↔
      name ≠ Named.reserved ∧ LastSets layers name text) ∧
    (∀ name, name ∈ Named.names (merge layers).entries ↔
      name ≠ Named.reserved ∧ ∃ layer ∈ layers, (layer.get? name).isSome = true) ∧
    (∀ before after, layers = before ++ after →
      merge [merge before, merge after] = merge layers) ∧
    (∀ last, layers.getLast? = some last → merge [merge layers, last] = merge layers) ∧
    (steps layers).length = layers.length ∧
    (∀ k r, (steps layers)[k]? = some r →
      r.environment = merge (layers.take (k + 1)) ∧
      r.result = (merge (layers.take (k + 1))).load ∧
      r.summary? = (merge (layers.take (k + 1))).load.toOption.map fun loaded =>
        Report.summary loaded.configuration (merge (layers.take (k + 1)))) ∧
    ∀ (j k : Nat) (earlier later : Resolved), j ≤ k → (steps layers)[j]? = some earlier →
      (steps layers)[k]? = some later →
      ∀ name, (earlier.environment.get? name).isSome = true →
        (later.environment.get? name).isSome = true := by
  refine ⟨Environment.get?_merge_eq_some_iff layers, ?listed, ?split, ?again, length_steps layers,
    ?step, ?stays⟩
  case listed =>
    intro name
    rw [(Environment.clean_merge layers).mem_names_iff, Environment.isSome_get?_merge_iff]
  case split =>
    rintro before after rfl
    exact Environment.merge_append before after
  case again =>
    intro last isLast
    obtain ⟨others, rfl⟩ := List.getLast?_eq_some_iff.1 isLast
    exact Environment.merge_last_again others last
  case step =>
    intro k r shown
    rw [eq_of_getElem?_steps shown]
    refine ⟨rfl, rfl, ?_⟩
    rw [Resolved.summary?, Resolved.ofEnvironment]
    cases (merge (layers.take (k + 1))).load <;> rfl
  case stays =>
    intro j k earlier later le shown shown' name set
    rw [eq_of_getElem?_steps shown] at set
    rw [eq_of_getElem?_steps shown']
    exact isSome_get?_merge_of_subset (List.take_subset_take_left layers (by omega)) set

end BenchSettings.Session
