/-
BenchSettings.Proofs.Json.Order — one text for a value, in one order, and the
value back.

The order of names is said without the two steps that bring it about: `Before`
puts the names that are array indices first, by their numbers, and all others
behind them by their units. Members are sorted by units alone, and it is the
object that then lists indices first (`pairwise_before_sortMembers`). A value is
`Ordered` when every object in it, at any depth, lists its names in this order.
Canonical form is (`ordered_canonical`), and a value that is ordered already is
its own canonical form (`canonical_of_ordered`).

Members in strict order are told by what is found among them
(`eq_of_pairwise_before`), whatever order they were in before. So values that
differ in the order of members only have one canonical form, by induction on
how they differ (`canonical_congr`), and with it one text
(`serialize_in_order`). The text loses nothing: it is read back as the same
value, which again has this text (`read_serialize`).
-/
import BenchSettings.EnvFile.Load
import BenchSettings.Proofs.Json.Grammar
import BenchSettings.Proofs.Json.Listing
import BenchSettings.Proofs.Json.Loosened

namespace BenchSettings.Json

open Text (Loose)

/-! ## 1. The order of names -/

/-- One name comes before another: the indices first, by their numbers, and then all other names by
their units. -/
inductive Before : String → String → Prop
  | indices {a b : String} {m n : Nat} (left : IndexOf m a) (right : IndexOf n b) (less : m < n) :
    Before a b
  | indexFirst {a b : String} (left : Indexed a) (right : ¬Indexed b) : Before a b
  | others {a b : String} (left : ¬Indexed a) (right : ¬Indexed b)
      (less : Text.units a < Text.units b) : Before a b

theorem compareLex_eq_lt_iff (xs ys : List Nat) :
    List.compareLex compare xs ys = .lt ↔ xs < ys := by
  induction xs generalizing ys with
  | nil => cases ys <;> simp [List.compareLex]
  | cons x xs ih =>
    cases ys with
    | nil => simp [List.compareLex]
    | cons y ys =>
      rw [List.compareLex, List.cons_lt_cons_iff, ← ih, ← Nat.compare_eq_lt, ← Nat.compare_eq_eq]
      cases compare x y <;> simp

theorem index?_eq_some_string_iff {name : String} {n : Nat} :
    index? name = some n ↔ IndexOf n name := by
  rw [← index?_ofString, index?_eq_some_iff]

theorem index?_eq_none_string_iff {name : String} : index? name = none ↔ ¬Indexed name := by
  rw [← index?_ofString, ← isSome_index?_iff, Option.not_isSome_iff_eq_none]

/-- Whether one name comes before another. -/
def precedes (a b : String) : Bool :=
  match index? a, index? b with
  | some m, some n => decide (m < n)
  | some _, none => true
  | none, some _ => false
  | none, none => decide (Text.units a < Text.units b)

theorem precedes_iff {a b : String} : precedes a b = true ↔ Before a b := by
  constructor
  · intro first
    cases ha : index? a with
    | some m =>
      cases hb : index? b with
      | some n =>
        simp only [precedes, ha, hb, decide_eq_true_eq] at first
        exact .indices (index?_eq_some_string_iff.1 ha) (index?_eq_some_string_iff.1 hb) first
      | none =>
        exact .indexFirst ⟨m, index?_eq_some_string_iff.1 ha⟩ (index?_eq_none_string_iff.1 hb)
    | none =>
      cases hb : index? b with
      | some n => simp [precedes, ha, hb] at first
      | none =>
        simp only [precedes, ha, hb, decide_eq_true_eq] at first
        exact .others (index?_eq_none_string_iff.1 ha) (index?_eq_none_string_iff.1 hb) first
  · rintro (⟨left, right, less⟩ | ⟨⟨m, left⟩, right⟩ | ⟨left, right, less⟩)
    · simp only [precedes, index?_eq_some_string_iff.2 left, index?_eq_some_string_iff.2 right,
        less, decide_true]
    · simp only [precedes, index?_eq_some_string_iff.2 left, index?_eq_none_string_iff.2 right]
    · simp only [precedes, index?_eq_none_string_iff.2 left, index?_eq_none_string_iff.2 right,
        less, decide_true]

instance (a b : String) : Decidable (Before a b) := decidable_of_iff _ precedes_iff

theorem IndexOf.number_eq {name : Loose} {m n : Nat} (left : IndexOf m name)
    (right : IndexOf n name) : m = n :=
  Option.some.inj ((index?_eq_some_iff.2 left).symm.trans (index?_eq_some_iff.2 right))

theorem Before.asymm {a b : String} (before : Before a b) : ¬Before b a := by
  intro after
  cases before with
  | indices left right less =>
    cases after with
    | indices right' left' less' =>
      have := left.number_eq left'
      have := right.number_eq right'
      omega
    | indexFirst _ other => exact other ⟨_, left⟩
    | others other _ _ => exact other ⟨_, right⟩
  | indexFirst left right =>
    cases after with
    | indices right' _ _ => exact right ⟨_, right'⟩
    | indexFirst right' _ => exact right right'
    | others _ other _ => exact other left
  | others left right less =>
    cases after with
    | indices right' _ _ => exact right ⟨_, right'⟩
    | indexFirst right' _ => exact right right'
    | others _ _ less' => exact List.lt_asymm less less'

/-! ## 2. Sorted members -/

/-- Members of distinct names get into the strict order of their units. -/
theorem pairwise_units_sortByUnits {α : Type} {members : List (String × α)}
    (distinct : (Named.names members).Nodup) :
    (sortByUnits members).Pairwise fun a b => Text.units a.1 < Text.units b.1 := by
  have names := (sortByUnits_perm members).map Prod.fst
  have apart := List.pairwise_map.1 (names.symm.nodup distinct)
  refine ((pairwise_sortByUnits members).and apart).imp ?_
  rintro a b ⟨le, ne⟩
  rw [← compareLex_eq_lt_iff]
  cases order : Text.compareUnits a.1 b.1 with
  | lt => exact order
  | eq => exact absurd (Text.eq_of_compareUnits order) ne
  | gt => simp [unitsLe, order] at le

/-- An object that gets its members in the order of their units lists them in the order of names.
The indices go to the front, and all others stay as they came. -/
theorem pairwise_before_arrange {written : List (String × Json)}
    (distinct : (Named.names written).Nodup)
    (sorted : written.Pairwise fun a b => Text.units a.1 < Text.units b.1) :
    (arrange written).Pairwise fun a b => Before a.1 b.1 := by
  have listed : Listed (loosenMembers written) (loosenMembers (arrange written)) := by
    rw [← arrange_loosenMembers]
    exact listed_arrange (nodup_names_loosenMembers distinct)
  have indices : (arrange written).Pairwise fun a b =>
      ∀ n, IndexOf n b.1 → ∃ m < n, IndexOf m a.1 := by
    have front := listed.indices
    rwa [loosenMembers_eq_map, List.pairwise_map] at front
  have others : (unindexed (arrange written)).Pairwise fun a b =>
      Text.units a.1 < Text.units b.1 := by
    rw [unindexed_arrange]
    exact sorted.filter _
  refine (indices.and (List.pairwise_filter.1 others)).imp ?_
  rintro a b ⟨numbers, units⟩
  have noIndex {name : String} (other : ¬Indexed name) : (index? name).isNone = true :=
    Option.isNone_iff_eq_none.2 (index?_eq_none_string_iff.2 other)
  by_cases right : Indexed b.1
  · obtain ⟨n, right⟩ := right
    obtain ⟨m, less, left⟩ := numbers n right
    exact .indices left right less
  by_cases left : Indexed a.1
  · exact .indexFirst left right
  · exact .others left right (units (noIndex left) (noIndex right))

/-- The two steps together put members of distinct names in the order of names. -/
theorem pairwise_before_sortMembers {members : List (String × Json)}
    (distinct : (Named.names members).Nodup) :
    (sortMembers members).Pairwise fun a b => Before a.1 b.1 := by
  have names := (sortByUnits_perm members).map Prod.fst
  exact pairwise_before_arrange (names.symm.nodup distinct) (pairwise_units_sortByUnits distinct)

/-! ## 3. Ordered values -/

/-- In every object in a value, at any depth, each name comes before all that are listed behind
it. -/
inductive Ordered : Json → Prop
  | null : Ordered .null
  | bool (b : Bool) : Ordered (.bool b)
  | number (n : Number) : Ordered (.number n)
  | string (s : String) : Ordered (.string s)
  | array {items : List Json} (all : ∀ v ∈ items, Ordered v) : Ordered (.array items)
  | object {members : List (String × Json)}
      (sorted : members.Pairwise fun a b => Before a.1 b.1) (all : ∀ m ∈ members, Ordered m.2) :
    Ordered (.object members)

theorem pairwise_before_canonicalMembers {members : List (String × Json)}
    (distinct : (Named.names members).Nodup) (kept : Named.reserved ∉ Named.names members) :
    (sortMembers (canonicalMembers members)).Pairwise fun a b => Before a.1 b.1 := by
  rw [← names_canonicalMembers kept] at distinct
  exact pairwise_before_sortMembers distinct

/-- Canonical form is ordered. -/
theorem ordered_canonical {v : Json} (plain : Plain v) : Ordered v.canonical := by
  induction plain with
  | null => exact .null
  | bool b => exact .bool b
  | number exact => exact .number _
  | string s => exact .string s
  | @array items _ ih =>
    rw [canonical, canonicalItems_eq_map]
    exact .array (List.forall_mem_map.2 ih)
  | @object members distinct kept _ ih =>
    rw [canonical]
    exact .object (pairwise_before_canonicalMembers distinct kept) (forall_mem_sortMembers kept ih)

/-! ## 4. One canonical form -/

/-- Names that come one before the other are distinct. -/
theorem nodup_of_pairwise_before {α : Type} {members : List (String × α)}
    (sorted : members.Pairwise fun a b => Before a.1 b.1) : (Named.names members).Nodup := by
  rw [Named.names, List.Nodup, List.pairwise_map]
  refine sorted.imp fun {a b} before same => ?_
  rw [same] at before
  exact before.asymm before

/-- Sorted members are told by what is found among them. -/
theorem eq_of_pairwise_before {α : Type} {ms ns : List (String × α)}
    (left : ms.Pairwise fun a b => Before a.1 b.1) (right : ns.Pairwise fun a b => Before a.1 b.1)
    (same : ∀ name, Named.get? name ms = Named.get? name ns) : ms = ns := by
  have distinct := nodup_of_pairwise_before left
  have distinct' := nodup_of_pairwise_before right
  have perm : ms.Perm ns := by
    rw [List.perm_ext_iff_of_nodup (distinct.of_map _) (distinct'.of_map _)]
    rintro ⟨name, value⟩
    rw [← Named.get?_eq_some_iff distinct, same, Named.get?_eq_some_iff distinct']
  exact perm.eq_of_pairwise (fun a b _ _ before after => absurd after before.asymm) left right

/-- Values that differ in the order of members only have one canonical form. -/
theorem canonical_congr {v w : Json} (same : Same v w) (left : Plain v) (right : Plain w) :
    v.canonical = w.canonical := by
  induction same with
  | refl => rfl
  | @array xs ys length _ ih =>
    cases left with | array all =>
    cases right with | array all' =>
    rw [canonical, canonical, canonicalItems_eq_map, canonicalItems_eq_map]
    refine congrArg _ (List.ext_getElem (by simpa using length) fun i here there => ?_)
    rw [List.length_map] at here there
    rw [List.getElem_map, List.getElem_map]
    exact ih i _ _ (List.getElem?_eq_getElem here) (List.getElem?_eq_getElem there)
      (all _ (List.getElem_mem here)) (all' _ (List.getElem_mem there))
  | @object ms ns names values ih =>
    cases left with | object distinct kept all =>
    cases right with | object distinct' kept' all' =>
    rw [canonical, canonical]
    refine congrArg _ (eq_of_pairwise_before (pairwise_before_canonicalMembers distinct kept)
      (pairwise_before_canonicalMembers distinct' kept') fun name => ?_)
    rw [get?_sortMembers distinct kept, get?_sortMembers distinct' kept']
    have both := names name
    rw [Named.mem_names_iff, Named.mem_names_iff] at both
    cases here : Named.get? name ms with
    | none =>
      rw [here, Option.isSome_none, Bool.false_eq_true, false_iff, Option.not_isSome_iff_eq_none]
        at both
      rw [both]
    | some v =>
      obtain ⟨w, there⟩ := Option.isSome_iff_exists.1 (both.1 (by rw [here]; rfl))
      rw [there, Option.map_some, Option.map_some]
      exact congrArg some (ih name v w here there
        (all _ ((Named.get?_eq_some_iff distinct).1 here))
        (all' _ ((Named.get?_eq_some_iff distinct').1 there)))

/-- Ordered values are in canonical form. -/
theorem canonical_of_ordered {v : Json} (plain : Plain v) (ordered : Ordered v) :
    v.canonical = v := by
  induction plain with
  | null | bool | number | string => rfl
  | @array items _ ih =>
    cases ordered with | array all =>
    rw [canonical, canonicalItems_eq_map]
    refine congrArg _ ((List.map_congr_left fun v mem => ?_).trans items.map_id)
    exact ih v mem (all v mem)
  | @object members distinct kept _ ih =>
    cases ordered with | object sorted all =>
    rw [canonical]
    refine congrArg _ (eq_of_pairwise_before (pairwise_before_canonicalMembers distinct kept) sorted
      fun name => ?_)
    rw [get?_sortMembers distinct kept]
    cases here : Named.get? name members with
    | none => rfl
    | some v =>
      have mem := (Named.get?_eq_some_iff distinct).1 here
      exact congrArg some (ih _ mem (all _ mem))

/-- Canonical form can be sorted again. -/
theorem plain_canonical {v : Json} (plain : Plain v) : Plain v.canonical := by
  induction plain with
  | null => exact .null
  | bool b => exact .bool b
  | number exact => exact .number exact
  | string s => exact .string s
  | @array items _ ih =>
    rw [canonical, canonicalItems_eq_map]
    exact .array (List.forall_mem_map.2 ih)
  | @object members distinct kept _ ih =>
    have names := (sortMembers_perm (canonicalMembers members)).map Prod.fst
    rw [canonical]
    refine .object (nodup_names_sortMembers distinct kept) ?_ (forall_mem_sortMembers kept ih)
    have kept' := kept
    rw [← names_canonicalMembers kept] at kept'
    exact fun mem => kept' (names.mem_iff.1 mem)

/-- An object with its members in another order, and with the same values under them, is the same
object. -/
theorem same_of_perm {ms ms' ns : List (String × Json)} (distinct : (Named.names ms).Nodup)
    (perm : ms.Perm ms') (values : List.Forall₂ (fun a b => a.1 = b.1 ∧ Same a.2 b.2) ms' ns) :
    Same (.object ms) (.object ns) := by
  have alike (name : String) : Option.Rel Same (Named.get? name ms) (Named.get? name ns) := by
    rw [Named.get?_of_perm perm distinct]
    clear perm
    induction values with
    | nil => exact .none
    | @cons a b _ _ first _ ih =>
      obtain ⟨a, v⟩ := a
      obtain ⟨b, w⟩ := b
      obtain ⟨rfl, same⟩ : a = b ∧ Same v w := first
      simp only [Named.get?]
      split
      · exact .some same
      · exact ih
  refine .object (fun name => ?_) fun name v w here there => ?_
  · rw [Named.mem_names_iff, Named.mem_names_iff]
    have found := alike name
    generalize Named.get? name ms = v at *
    generalize Named.get? name ns = w at *
    cases found <;> simp
  · have same := alike name
    rw [here, there] at same
    cases same with | some same => exact same

/-! ## 5. The text of a value -/

/-- Values that differ in the order of members only, at any depth, have one text. It spells the same
value with every array as it is and with the names of every object in order. -/
theorem serialize_in_order {v : Json} (plain : Plain v) :
    (∀ w, Plain w → Same v w → w.serialize = v.serialize) ∧
    ∃ u, Spells u v.serialize.toList ∧ Same v u ∧ Ordered u := by
  constructor
  · intro w plain' same
    rw [serialize, serialize, canonical_congr same plain plain']
  · exact ⟨v.canonical, spells_toText _, same_canonical plain, ordered_canonical plain⟩

/-- Every name stands in the wrong place. The pair of surrogates that spells the face is below the
unit of the circle, and the number 9 is below 10. -/
def backward : List (String × Json) :=
  [("￮", .null), ("😀", .object []), ("10", .bool true), ("9", .number (.integer (-7)))]

def backwardText : String :=
  "[\n  \x7b\n    \"9\": -7,\n    \"10\": true,\n    \"😀\": \x7b\x7d,\n    \"￮\": null\n  \x7d\n]"

theorem serialize_in_order_backward :
    Plain (.array [.object backward]) ∧ Plain (.array [.object backward.reverse]) ∧
    Same (.array [.object backward]) (.array [.object backward.reverse]) ∧
    serialize (.array [.object backward]) = backwardText ∧
    ∃ u, Spells u (serialize (.array [.object backward])).toList ∧
      Same (.array [.object backward]) u ∧ Ordered u := by
  have values : ∀ m ∈ backward, Plain m.2 := by
    simp only [backward, List.forall_mem_cons, List.not_mem_nil, false_implies, implies_true,
      and_true]
    exact ⟨.null, .object (by decide) (by decide) nofun, .bool true, .number (by decide)⟩
  have plain : Plain (.array [.object backward]) :=
    .array (List.forall_mem_singleton.2 (.object (by decide) (by decide) values))
  have plain' : Plain (.array [.object backward.reverse]) := by
    refine .array (List.forall_mem_singleton.2 (.object (by decide) (by decide) fun m mem => ?_))
    exact values m (List.mem_reverse.1 mem)
  have ordered : Ordered (.array [.object backward.reverse]) := by
    refine .array (List.forall_mem_singleton.2 (.object (by decide +kernel) ?_))
    simp only [backward, List.reverse_cons, List.reverse_nil, List.nil_append, List.cons_append,
      List.forall_mem_cons, List.not_mem_nil, false_implies, implies_true, and_true]
    exact ⟨.number _, .bool true, .object .nil nofun, .null⟩
  have same : Same (.array [.object backward]) (.array [.object backward.reverse]) := by
    refine .array rfl fun i v w here there => ?_
    cases i with
    | zero =>
      cases here
      cases there
      exact same_of_perm (by decide) (List.reverse_perm _).symm
        (List.forall₂_same.2 fun m _ => ⟨rfl, .refl _⟩)
    | succ => cases here
  have text : toText (.array [.object backward.reverse]) = backwardText := by decide +kernel
  obtain ⟨one, spelled⟩ := serialize_in_order plain
  refine ⟨plain, plain', same, ?_, spelled⟩
  rw [← one _ plain' same, serialize, canonical_of_ordered plain' ordered, text]

/-! ## 6. The value of a text -/

/-- The text of a value is read as this value, but for the order of members, and the value that is
read has this text again. -/
theorem read_serialize {v : Json} (plain : Plain v) :
    ∃ u : Json, parse? v.serialize = some u ∧
      (∀ path, EnvFile.isJsonPath path = true →
        EnvFile.valueOf path v.serialize.toList = .ok u.loosen) ∧
      Same v u ∧ Plain u ∧ u.serialize = v.serialize := by
  have same := same_canonical plain
  have plain' := plain_canonical plain
  refine ⟨v.canonical, parse?_serialize plain, fun path json => ?_, same, plain', ?_⟩
  · rw [EnvFile.valueOf, if_pos json, String.ofList_toList, parse?_serialize_loosen plain]
  · exact congrArg toText (canonical_congr same plain plain').symm

/-- Empty containers, the least whole number that is exact, and texts in which all but one character
is escaped. -/
def escaped : Json :=
  .object
    [("\n\"\\", .array [.array [], .object [], .number (.integer (-9007199254740991))]),
     ("", .string "\x00😀\t")]

theorem read_serialize_escaped :
    Plain escaped ∧ ∃ u : Json,
      EnvFile.valueOf "saved.json" escaped.serialize.toList = .ok u.loosen ∧
      Same escaped u ∧ u.serialize = escaped.serialize := by
  have plain : Plain escaped := by
    refine .object (by decide) (by decide) ?_
    simp only [List.forall_mem_cons, List.not_mem_nil, false_implies, implies_true, and_true]
    refine ⟨.array ?_, .string _⟩
    simp only [List.forall_mem_cons, List.not_mem_nil, false_implies, implies_true, and_true]
    exact ⟨.array nofun, .object .nil nofun nofun, .number (by decide)⟩
  obtain ⟨u, -, read, same, -, again⟩ := read_serialize plain
  exact ⟨plain, u, read "saved.json" (by decide), same, again⟩

end BenchSettings.Json
