/-
BenchSettings.Proofs.Json.Loosened — a value in a file whose names can be
anything.

Values are written with proper texts and files of unknown names are read with
loose ones. The two meet in `loosen`, the same tree with every text in it as a
loose text. A value and its loosened form have one text (`toText_loosen`),
since a printer goes through texts sign by sign and the signs are the same. So
a canonical text that is read with loose texts is the loosened value
(`parse?_serialize_loosen`).

A reader lists the members of both in one order, because what it sorts by is
the number of a name, and a name has the same number as a loose text
(`index?_ofString`).
-/
import BenchSettings.Proofs.Json.Canonical

namespace BenchSettings.Json

open Text (Loose Sign Spelled)

mutual

/-- The value with loose texts. -/
def loosen : Json → JsonOf Loose
  | .null => .null
  | .bool b => .bool b
  | .number n => .number n
  | .string s => .string (.ofString s)
  | .array items => .array (loosenItems items)
  | .object members => .object (loosenMembers members)
termination_by structural v => v

def loosenItems : List Json → List (JsonOf Loose)
  | [] => []
  | item :: rest => loosen item :: loosenItems rest
termination_by structural items => items

def loosenMembers : List (String × Json) → List (Loose × JsonOf Loose)
  | [] => []
  | (name, value) :: rest => (.ofString name, loosen value) :: loosenMembers rest
termination_by structural members => members

end

theorem loosenItems_eq_map (items : List Json) : loosenItems items = items.map loosen := by
  induction items with
  | nil => rfl
  | cons item rest ih => rw [loosenItems, ih, List.map_cons]

theorem loosenMembers_eq_map (members : List (String × Json)) :
    loosenMembers members = members.map fun m => (.ofString m.1, m.2.loosen) := by
  induction members with
  | nil => rfl
  | cons member rest ih => rw [loosenMembers, ih, List.map_cons]

/-! ## 1. One text -/

theorem quote_ofString (s : String) : quote (Loose.ofString s) = quote s := rfl

mutual

theorem print_loosen (level : Nat) : ∀ v : Json, print level v.loosen = print level v
  | .null => rfl
  | .bool true => rfl
  | .bool false => rfl
  | .number _ => rfl
  | .string s => quote_ofString s
  | .array [] => rfl
  | .array (item :: rest) => by
    rw [loosen, loosenItems, print, ← loosenItems, printItems_loosen (level + 1) (item :: rest),
      print]
  | .object [] => rfl
  | .object ((name, value) :: rest) => by
    rw [loosen, loosenMembers, print, ← loosenMembers,
      printMembers_loosen (level + 1) ((name, value) :: rest), print]
termination_by structural v => v

theorem printItems_loosen (level : Nat) :
    ∀ items : List Json, printItems level (loosenItems items) = printItems level items
  | [] => rfl
  | item :: rest => by
    have more : separator (loosenItems rest) = separator rest := by cases rest <;> rfl
    rw [loosenItems, printItems, print_loosen level item, more, printItems_loosen level rest,
      printItems]
termination_by structural items => items

theorem printMembers_loosen (level : Nat) : ∀ members : List (String × Json),
    printMembers level (loosenMembers members) = printMembers level members
  | [] => rfl
  | (name, value) :: rest => by
    have more : separator (loosenMembers rest) = separator rest := by cases rest <;> rfl
    rw [loosenMembers, printMembers, quote_ofString, print_loosen level value, more,
      printMembers_loosen level rest, printMembers]
termination_by structural members => members

end

theorem toText_loosen (v : Json) : toText v.loosen = toText v := by
  rw [toText, print_loosen, toText]

/-! ## 2. Told from its text -/

theorem proper_ofString (s : String) : Proper (Loose.ofString s) := by
  refine ⟨s, rfl, ?_⟩
  show Loose.mk (Sign.ofUnits (Text.units s)) = _
  rw [Text.units, Sign.ofUnits_charUnits]
  rfl

theorem ofString_injective {s t : String} (same : Loose.ofString s = Loose.ofString t) : s = t := by
  rw [← Loose.shown_ofString s, same, Loose.shown_ofString]

theorem names_loosenMembers (members : List (String × Json)) :
    Named.names (loosenMembers members) = (Named.names members).map Loose.ofString := by
  rw [loosenMembers_eq_map, Named.names, Named.names, List.map_map, List.map_map]
  rfl

theorem nodup_names_loosenMembers {members : List (String × Json)}
    (distinct : (Named.names members).Nodup) : (Named.names (loosenMembers members)).Nodup := by
  rw [names_loosenMembers]
  exact List.Pairwise.map _ (fun _ _ apart same => apart (ofString_injective same)) distinct

theorem index?_ofString (name : String) : index? (Loose.ofString name) = index? name := rfl

/-- Loosened members are listed as the members are. -/
theorem arrange_loosenMembers (members : List (String × Json)) :
    arrange (loosenMembers members) = loosenMembers (arrange members) := by
  simp only [arrange, indexed, unindexed, loosenMembers_eq_map, List.filter_map, List.map_append]
  refine congrArg (· ++ _) (Eq.symm ?_)
  exact List.map_mergeSort fun _ _ _ _ => rfl

/-- What can be told from its text can still be when its texts are loose. -/
theorem legible_loosen {v : Json} (h : Legible v) : Legible v.loosen := by
  induction h with
  | null => exact .null
  | bool b => exact .bool b
  | number exact => exact .number exact
  | @string s _ => exact .string (proper_ofString s)
  | @array items _ ih =>
    rw [loosen, loosenItems_eq_map]
    exact .array (List.forall_mem_map.2 ih)
  | @object members distinct arranged _ _ ih =>
    rw [loosen]
    refine .object (nodup_names_loosenMembers distinct) ?_ ?_ ?_
    · rw [arrange_loosenMembers, arranged]
    · rw [loosenMembers_eq_map]
      exact List.forall_mem_map.2 fun m _ => proper_ofString m.1
    · rw [loosenMembers_eq_map]
      exact List.forall_mem_map.2 ih

/-- A canonical text, read with loose texts, is the canonical form with its texts loose. -/
theorem parse?_serialize_loosen {v : Json} (h : Plain v) :
    parse? v.serialize = some v.canonical.loosen := by
  rw [serialize, ← toText_loosen]
  exact parse?_toText (legible_loosen (legible_canonical h))

end BenchSettings.Json
