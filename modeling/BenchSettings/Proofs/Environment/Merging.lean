/-
BenchSettings.Proofs.Environment.Merging — layers over layers.

Laying environments over one another is associative. What a stack of layers
leaves can itself be laid over something, and that comes to the same as laying
all of its layers, one after the other: `merge_append` for a stack that is cut
in two. The equality is one of environments, so the order in which variables
are listed is the same as well.

Two facts about listings carry this. A value that is put twice under one name
stays as it was put last (`put_put_self`), and a name that is listed already
keeps its place whatever is put under other names (`put_put_comm`). The second
one needs the name to be there, and that is why the environment in the middle
has to be clean (`Clean`): it lists no variable that it would not pass on. What
layers leave is always clean.
-/
import BenchSettings.Environment

namespace BenchSettings

/-! ## 1. Putting values -/

namespace Named

variable {κ α : Type} [DecidableEq κ]

theorem put_put_self (name : κ) (value old : α) (entries : List (κ × α)) :
    put name value (put name old entries) = put name value entries := by
  induction entries with
  | nil => simp [put]
  | cons e rest ih =>
    obtain ⟨other, there⟩ := e
    by_cases same : other = name <;> simp [put, same, ih]

/-- A name that is listed keeps its place. -/
theorem put_put_comm {entries : List (κ × α)} {name other : κ} (listed : name ∈ names entries)
    (apart : name ≠ other) (value more : α) :
    put name value (put other more entries) = put other more (put name value entries) := by
  induction entries with
  | nil => cases listed
  | cons e rest ih =>
    obtain ⟨first, there⟩ := e
    by_cases same : first = name
    · subst same
      simp [put, apart]
    · have later : name ∈ names rest := by
        rcases List.mem_cons.1 listed with here | later
        · exact absurd here.symm same
        · exact later
      by_cases same' : first = other
      · subst same'
        simp [put, same]
      · simp [put, same, same', ih later]

/-- To put what is there already changes nothing. -/
theorem put_of_get? {entries : List (κ × α)} {name : κ} {value : α}
    (there : get? name entries = some value) : put name value entries = entries := by
  induction entries with
  | nil => cases there
  | cons e rest ih =>
    obtain ⟨other, old⟩ := e
    by_cases same : other = name
    · obtain rfl : old = value := by simpa [get?, same] using there
      simp [put, same]
    · simp only [get?, same, if_false] at there
      simp [put, same, ih there]

end Named

namespace Environment

/-! ## 2. What is passed on -/

theorem ext_entries {env other : Environment} (same : env.entries = other.entries) :
    env = other := by
  cases env
  cases other
  cases same
  rfl

/-- Whether a listed variable is passed on to the environment below. -/
def passedOn (entry : String × Option String) : Bool :=
  entry.2.isSome && entry.1 != Named.reserved

theorem pass_of_passedOn {name : String} {text : Option String} (on : passedOn (name, text) = true)
    (base : Environment) : base.pass (name, text) = base.set name text := by
  obtain ⟨text, rfl⟩ : ∃ t, text = some t := Option.isSome_iff_exists.1 (Bool.and_eq_true_iff.1 on).1
  have kept : name ≠ Named.reserved := by simpa [passedOn] using on
  simp [pass, kept]

theorem pass_of_not_passedOn {entry : String × Option String} (off : passedOn entry = false)
    (base : Environment) : base.pass entry = base := by
  obtain ⟨name, text⟩ := entry
  cases text with
  | none => rfl
  | some text =>
    have reserved : name = Named.reserved := by simpa [passedOn] using off
    simp [pass, reserved]

/-- An environment that passes on all that it lists. -/
def Clean (env : Environment) : Prop := ∀ e ∈ env.entries, passedOn e = true

theorem clean_empty : empty.Clean := fun _ mem => nomatch mem

theorem Clean.pass {env : Environment} (clean : env.Clean) (entry : String × Option String) :
    (env.pass entry).Clean := by
  obtain ⟨name, text⟩ := entry
  cases on : passedOn (name, text) with
  | false => rwa [pass_of_not_passedOn on]
  | true =>
    rw [pass_of_passedOn on]
    intro e mem
    rcases Named.mem_put mem with rfl | old
    · exact on
    · exact clean e old

theorem Clean.overlay {env : Environment} (clean : env.Clean) (layer : Environment) :
    (env.overlay layer).Clean :=
  List.foldlRecOn layer.entries Environment.pass clean fun _ clean e _ => clean.pass e

/-- What layers leave is clean. -/
theorem clean_merge (layers : List Environment) : (merge layers).Clean :=
  List.foldlRecOn layers Environment.overlay clean_empty fun _ clean layer _ =>
    clean.overlay layer

/-! ## 3. A layer over nothing -/

/-- A layer of new names is added, as far as it is passed on. -/
theorem entries_foldl_pass {layer : List (String × Option String)}
    (distinct : (Named.names layer).Nodup) {base : Environment}
    (fresh : ∀ name ∈ Named.names layer, name ∉ Named.names base.entries) :
    (layer.foldl pass base).entries = base.entries ++ layer.filter passedOn := by
  induction layer generalizing base with
  | nil => simp
  | cons e rest ih =>
    obtain ⟨name, text⟩ := e
    have parts : name ∉ Named.names rest ∧ (Named.names rest).Nodup := by
      simpa [Named.names] using distinct
    have later : ∀ other ∈ Named.names rest, other ∉ Named.names base.entries :=
      fun other mem => fresh other (List.mem_cons_of_mem name mem)
    rw [List.foldl_cons]
    cases on : passedOn (name, text) with
    | false =>
      rw [pass_of_not_passedOn on, ih parts.2 later, List.filter_cons_of_neg (by simp [on])]
    | true =>
      have put : (base.set name text).entries = base.entries ++ [(name, text)] :=
        Named.put_of_not_mem (fresh name List.mem_cons_self) text
      have added : ∀ other ∈ Named.names rest,
          other ∉ Named.names (base.set name text).entries := by
        intro other mem
        rw [set, Named.mem_names_put]
        rintro (rfl | old)
        · exact parts.1 mem
        · exact later other mem old
      rw [pass_of_passedOn on, ih parts.2 added, List.filter_cons_of_pos on, put,
        List.append_assoc, List.singleton_append]

/-- An environment laid over nothing keeps the variables that are set, but for the reserved name. -/
theorem entries_merge_empty (env : Environment) :
    (merge [.empty, env]).entries = env.entries.filter passedOn := by
  have laid : merge [.empty, env] = env.entries.foldl pass .empty := rfl
  rw [laid, entries_foldl_pass env.distinct fun _ _ => List.not_mem_nil]
  rfl

/-- A clean environment laid over nothing is left alone. -/
theorem Clean.empty_overlay {env : Environment} (clean : env.Clean) : empty.overlay env = env := by
  refine ext_entries ((entries_merge_empty env).trans ?_)
  exact List.filter_eq_self.2 clean

/-! ## 4. A layer over a layer -/

/-- A variable that is listed can be set before other variables are passed on, or after. -/
theorem set_foldl_pass {base : Environment} {name : String} (listed : name ∈ Named.names base.entries)
    {entries : List (String × Option String)} (apart : name ∉ Named.names entries)
    (text : Option String) :
    (entries.foldl pass base).set name text = entries.foldl pass (base.set name text) := by
  induction entries generalizing base with
  | nil => rfl
  | cons e rest ih =>
    obtain ⟨other, more⟩ := e
    simp only [Named.names, List.map_cons, List.mem_cons, not_or] at apart
    rw [List.foldl_cons, List.foldl_cons]
    cases on : passedOn (other, more) with
    | false => rw [pass_of_not_passedOn on, pass_of_not_passedOn on, ih listed apart.2]
    | true =>
      have still : name ∈ Named.names (base.set other more).entries :=
        (Named.mem_names_put ..).2 (.inr listed)
      have swapped : (base.set other more).set name text = (base.set name text).set other more :=
        ext_entries (Named.put_put_comm listed apart.1 text more)
      rw [pass_of_passedOn on, pass_of_passedOn on, ih still apart.2, swapped]

/-- To set a variable in a clean layer is to set it in what the layer is laid over. -/
theorem foldl_pass_put {entries : List (String × Option String)}
    (distinct : (Named.names entries).Nodup) (clean : ∀ e ∈ entries, passedOn e = true)
    {name : String} {text : Option String} (on : passedOn (name, text) = true)
    (base : Environment) :
    (Named.put name text entries).foldl pass base = (entries.foldl pass base).set name text := by
  induction entries generalizing base with
  | nil => exact pass_of_passedOn on base
  | cons e rest ih =>
    obtain ⟨other, old⟩ := e
    have parts : other ∉ Named.names rest ∧ (Named.names rest).Nodup := by
      simpa [Named.names] using distinct
    have first : base.pass (other, old) = base.set other old :=
      pass_of_passedOn (clean _ List.mem_cons_self) base
    by_cases same : other = name
    · subst same
      have listed : other ∈ Named.names (base.set other old).entries :=
        (Named.mem_names_put ..).2 (.inl rfl)
      have again : (base.set other old).set other text = base.set other text :=
        ext_entries (Named.put_put_self ..)
      rw [Named.put, if_pos rfl, List.foldl_cons, List.foldl_cons, first, pass_of_passedOn on,
        set_foldl_pass listed parts.1, again]
    · rw [Named.put, if_neg same, List.foldl_cons, List.foldl_cons,
        ih parts.2 fun e mem => clean e (List.mem_cons_of_mem _ mem)]

/-- A layer can be laid over the layer below it first. -/
theorem overlay_overlay (base : Environment) {middle : Environment} (clean : middle.Clean)
    (layer : Environment) :
    base.overlay (middle.overlay layer) = (base.overlay middle).overlay layer := by
  have general : ∀ (entries : List (String × Option String)) (middle : Environment),
      middle.Clean →
      base.overlay (entries.foldl pass middle) = entries.foldl pass (base.overlay middle) := by
    intro entries
    induction entries with
    | nil => exact fun _ _ => rfl
    | cons e rest ih =>
      intro middle clean
      obtain ⟨name, text⟩ := e
      have step : base.overlay (middle.pass (name, text)) =
          (base.overlay middle).pass (name, text) := by
        cases on : passedOn (name, text) with
        | false => rw [pass_of_not_passedOn on, pass_of_not_passedOn on]
        | true =>
          rw [pass_of_passedOn on, pass_of_passedOn on]
          exact foldl_pass_put middle.distinct clean on base
      rw [List.foldl_cons, List.foldl_cons, ih _ (clean.pass _), step]
  exact general layer.entries middle clean

/-! ## 5. Stacks of layers -/

/-- To lay down what layers leave is to lay down the layers. -/
theorem overlay_merge (base : Environment) (layers : List Environment) :
    base.overlay (merge layers) = layers.foldl overlay base := by
  have general : ∀ (layers : List Environment) (middle : Environment), middle.Clean →
      base.overlay (layers.foldl overlay middle) =
        layers.foldl overlay (base.overlay middle) := by
    intro layers
    induction layers with
    | nil => exact fun _ _ => rfl
    | cons layer rest ih =>
      intro middle clean
      rw [List.foldl_cons, List.foldl_cons, ih _ (clean.overlay layer),
        overlay_overlay base clean]
  exact general layers empty clean_empty

/-- One more layer goes over what the others leave. -/
theorem merge_pair (layers : List Environment) (layer : Environment) :
    merge [merge layers, layer] = merge (layers ++ [layer]) := by
  have below : empty.overlay (merge layers) = merge layers :=
    (clean_merge layers).empty_overlay
  simp only [merge, List.foldl_append, List.foldl_cons, List.foldl_nil] at below ⊢
  rw [below]

/-- Layers can be merged part by part. -/
theorem merge_append (before after : List Environment) :
    merge [merge before, merge after] = merge (before ++ after) := by
  rw [merge_pair, merge, List.foldl_append, List.foldl_cons, List.foldl_nil, overlay_merge,
    merge, List.foldl_append]

/-! ## 6. What shows through -/

/-- What shows through two layers. -/
theorem get?_merge_pair (below above : Environment) {name : String} (h : name ≠ Named.reserved) :
    (merge [below, above]).get? name = (above.get? name).or (below.get? name) := by
  rw [get?_merge _ h]
  cases hab : above.get? name <;> simp [hab]

/-- Clean environments list what they set and nothing else. -/
theorem Clean.mem_names_iff {env : Environment} (clean : env.Clean) (name : String) :
    name ∈ Named.names env.entries ↔ (env.get? name).isSome = true := by
  constructor
  · intro mem
    obtain ⟨e, there, rfl⟩ := List.mem_map.1 mem
    rw [get?_of_mem there]
    exact (Bool.and_eq_true_iff.1 (clean e there)).1
  · intro set
    obtain ⟨text, found⟩ := Option.isSome_iff_exists.1 set
    exact List.mem_map_of_mem ((get?_eq_some_iff ..).1 found)

/-- No layer passes the reserved name on. -/
theorem get?_merge_reserved (layers : List Environment) :
    (merge layers).get? Named.reserved = none := by
  cases found : (merge layers).get? Named.reserved with
  | none => rfl
  | some text =>
    have on := clean_merge layers _ ((get?_eq_some_iff ..).1 found)
    simp [passedOn] at on

/-- A layer that shows already changes nothing. -/
theorem overlay_eq_self {base layer : Environment}
    (shows : ∀ name text, name ≠ Named.reserved → layer.get? name = some text →
      base.get? name = some text) : base.overlay layer = base := by
  have general : ∀ entries : List (String × Option String), (∀ e ∈ entries, e ∈ layer.entries) →
      entries.foldl pass base = base := by
    intro entries
    induction entries with
    | nil => exact fun _ => rfl
    | cons e rest ih =>
      intro mem
      obtain ⟨name, text⟩ := e
      have step : base.pass (name, text) = base := by
        cases on : passedOn (name, text) with
        | false => exact pass_of_not_passedOn on base
        | true =>
          obtain ⟨text, rfl⟩ : ∃ t, text = some t :=
            Option.isSome_iff_exists.1 (Bool.and_eq_true_iff.1 on).1
          have kept : name ≠ Named.reserved := by simpa [passedOn] using on
          have there := shows name text kept (get?_of_mem (mem _ List.mem_cons_self))
          rw [pass_of_passedOn on]
          refine ext_entries (Named.put_of_get? ?_)
          rwa [Named.get?_eq_some_iff base.distinct, ← get?_eq_some_iff]
      rw [List.foldl_cons, step, ih fun e there => mem e (List.mem_cons_of_mem _ there)]
  exact general layer.entries fun _ mem => mem

/-- The last layer can be laid down once more. -/
theorem merge_last_again (layers : List Environment) (layer : Environment) :
    merge [merge (layers ++ [layer]), layer] = merge (layers ++ [layer]) := by
  have top : merge (layers ++ [layer]) = (merge layers).overlay layer := by
    rw [merge, List.foldl_append, List.foldl_cons, List.foldl_nil, merge]
  rw [merge_pair, merge, List.foldl_append, List.foldl_cons, List.foldl_nil, ← merge]
  refine overlay_eq_self fun name text kept found => ?_
  rw [top, get?_overlay _ _ kept, found, Option.some_or]

/-- The last of some layers that sets a name sets it to a text. -/
def LastSets (layers : List Environment) (name text : String) : Prop :=
  ∃ before layer after, layers = before ++ layer :: after ∧ layer.get? name = some text ∧
    ∀ later ∈ after, later.get? name = none

/-- Layers show what the last of them that sets a name sets it to. -/
theorem get?_merge_eq_some_iff (layers : List Environment) (name text : String) :
    (merge layers).get? name = some text ↔ name ≠ Named.reserved ∧ LastSets layers name text := by
  by_cases reserved : name = Named.reserved
  · subst reserved
    simp [get?_merge_reserved]
  · rw [get?_merge layers reserved, List.findSome?_eq_some_iff]
    simp only [ne_eq, reserved, not_false_eq_true, true_and, LastSets]
    constructor
    · rintro ⟨later, layer, earlier, split, found, unset⟩
      refine ⟨earlier.reverse, layer, later.reverse, ?_, found, ?_⟩
      · rw [← List.reverse_reverse layers, split]
        simp
      · intro other mem
        exact unset other (List.mem_reverse.1 mem)
    · rintro ⟨before, layer, after, rfl, found, unset⟩
      refine ⟨after.reverse, layer, before.reverse, by simp, found, ?_⟩
      intro other mem
      exact unset other (List.mem_reverse.1 mem)

/-- A name is set by layers exactly when one of them sets it. -/
theorem isSome_get?_merge_iff (layers : List Environment) (name : String) :
    ((merge layers).get? name).isSome = true ↔
      name ≠ Named.reserved ∧ ∃ layer ∈ layers, (layer.get? name).isSome = true := by
  by_cases reserved : name = Named.reserved
  · subst reserved
    simp [get?_merge_reserved]
  · rw [get?_merge layers reserved, List.isSome_findSome?]
    simp [reserved]

end Environment

end BenchSettings
