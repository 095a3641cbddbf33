/-
BenchSettings.Proofs.Json.Grammar — which texts spell a value.

A reader of objects forgets in what order their members were written, so what
a text says about that order is said here without a reader. `Spells` is the
grammar of JSON texts: an array or an object is spelled by the texts of what it
lists, one after the other, with commas between them and blanks around them.
The tree that a text spells has its items and members in the order of the text.

What is printed of a value spells this value (`spells_toText`), so a printer
moves nothing. Each nested value is printed at an indentation of its own; the
end of a line belongs to the blanks in front of what comes on the next one, and
that is why items and members are spelled from the end of the line before them.
-/
import BenchSettings.Proofs.Json.Canonical

namespace BenchSettings.Json

/-! ## 1. Spelled values -/

/-- Blanks that may stand around a value. -/
def Gap (cs : List Char) : Prop := ∀ c ∈ cs, isGap c = true

mutual

/-- A text spells a value: what an array or an object lists is spelled in the order in which it is
listed, with commas between and any blanks around. -/
inductive Spells : Json → List Char → Prop
  | null : Spells .null "null".toList
  | yes : Spells (.bool true) "true".toList
  | no : Spells (.bool false) "false".toList
  | number (n : Number) : Spells (.number n) (numberText n)
  | string (s : String) : Spells (.string s) (quote s)
  | array {items : List Json} {inside : List Char} (spelled : SpellsItems items inside) :
    Spells (.array items) ('[' :: (inside ++ [']']))
  | object {members : List (String × Json)} {inside : List Char}
      (spelled : SpellsMembers members inside) :
    Spells (.object members) ('\x7b' :: (inside ++ ['\x7d']))

inductive SpellsItems : List Json → List Char → Prop
  | none {gap : List Char} (blank : Gap gap) : SpellsItems [] gap
  | last {v : Json} {before text after : List Char} (front : Gap before) (spelled : Spells v text)
      (back : Gap after) : SpellsItems [v] (before ++ (text ++ after))
  | more {v w : Json} {rest : List Json} {before text after others : List Char}
      (front : Gap before) (spelled : Spells v text) (back : Gap after)
      (follow : SpellsItems (w :: rest) others) :
    SpellsItems (v :: w :: rest) (before ++ (text ++ (after ++ ',' :: others)))

inductive SpellsMembers : List (String × Json) → List Char → Prop
  | none {gap : List Char} (blank : Gap gap) : SpellsMembers [] gap
  | last {name : String} {v : Json} {before gap text after : List Char} (front : Gap before)
      (between : Gap gap) (spelled : Spells v text) (back : Gap after) :
    SpellsMembers [(name, v)] (before ++ (quote name ++ ':' :: (gap ++ (text ++ after))))
  | more {name : String} {v : Json} {next : String × Json} {rest : List (String × Json)}
      {before gap text after others : List Char} (front : Gap before) (between : Gap gap)
      (spelled : Spells v text) (back : Gap after) (follow : SpellsMembers (next :: rest) others) :
    SpellsMembers ((name, v) :: next :: rest)
      (before ++ (quote name ++ ':' :: (gap ++ (text ++ (after ++ ',' :: others)))))

end

/-! ## 2. Printed values -/

theorem gap_nil : Gap [] := nofun

theorem gap_blank : Gap [' '] := by simp [Gap, isGap]

/-- The end of a line and the indentation of the next one are blanks. -/
theorem gap_indent (level : Nat) : Gap ('\n' :: indent level) := by
  intro c mem
  rcases List.mem_cons.1 mem with rfl | blank
  · rfl
  · rw [List.eq_of_mem_replicate blank]
    rfl

mutual

/-- A value is spelled by what is printed of it, in the order in which it lists things. -/
theorem spells_print (level : Nat) : ∀ v : Json, Spells v (print level v)
  | .null => .null
  | .bool true => .yes
  | .bool false => .no
  | .number n => .number n
  | .string s => .string s
  | .array [] => .array (.none gap_nil)
  | .array (item :: rest) => by
    have inside := spellsItems_print (level + 1) level (item :: rest) (List.cons_ne_nil _ _)
    simpa only [print, List.cons_append] using Spells.array inside
  | .object [] => .object (.none gap_nil)
  | .object (member :: rest) => by
    have inside := spellsMembers_print (level + 1) level (member :: rest) (List.cons_ne_nil _ _)
    simpa only [print, List.cons_append] using Spells.object inside
termination_by structural v => v

/-- Printed items, from the end of the line before them to the indentation behind them. -/
theorem spellsItems_print (level outer : Nat) : ∀ items : List Json, items ≠ [] →
    SpellsItems items ('\n' :: (printItems level items ++ indent outer))
  | [], filled => absurd rfl filled
  | [item], _ => by
    have spelled := SpellsItems.last (gap_indent level) (spells_print level item) (gap_indent outer)
    simpa [printItems, separator] using spelled
  | item :: next :: more, _ => by
    have others := spellsItems_print level outer (next :: more) (List.cons_ne_nil _ _)
    have spelled := SpellsItems.more (gap_indent level) (spells_print level item) gap_nil others
    simpa [printItems, separator] using spelled
termination_by structural items => items

theorem spellsMembers_print (level outer : Nat) : ∀ members : List (String × Json), members ≠ [] →
    SpellsMembers members ('\n' :: (printMembers level members ++ indent outer))
  | [], filled => absurd rfl filled
  | [(name, value)], _ => by
    have spelled : SpellsMembers [(name, value)] _ :=
      .last (gap_indent level) gap_blank (spells_print level value) (gap_indent outer)
    simpa [printMembers, separator] using spelled
  | (name, value) :: next :: more, _ => by
    have others := spellsMembers_print level outer (next :: more) (List.cons_ne_nil _ _)
    have spelled : SpellsMembers ((name, value) :: next :: more) _ :=
      .more (gap_indent level) gap_blank (spells_print level value) gap_nil others
    simpa [printMembers, separator] using spelled
termination_by structural members => members

end

/-- A value is spelled by its text. -/
theorem spells_toText (v : Json) : Spells v (toText v).toList := by
  rw [toText, String.toList_ofList]
  exact spells_print 0 v

end BenchSettings.Json
