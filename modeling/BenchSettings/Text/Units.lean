/-
BenchSettings.Text.Units — text measured in 16-bit units.

Columns, pattern lengths and the order of names are counted in the 16-bit
units of a text and not in its characters: a character below U+10000 is one
unit, any other is a pair of surrogate halves. This module holds the view of
a text as its units, the way back (`ofUnits`), and the three things the
library does with the view: a width (`width`), padding to a column (`padEnd`,
`padStart`) and an order (`compareUnits`).

The laws beside the definitions say that units are additive over appending,
that they spell the text they came from, and that padding in front reaches
exactly the column asked for when the text does not already pass it.
-/

namespace BenchSettings.Text

/-! ## 1. Units -/

/-- The units that spell one character. -/
def charUnits (c : Char) : List Nat :=
  if c.toNat < 0x10000 then [c.toNat]
  else [0xD800 + (c.toNat - 0x10000) / 0x400, 0xDC00 + (c.toNat - 0x10000) % 0x400]

def units (s : String) : List Nat := s.toList.flatMap charUnits

def width (s : String) : Nat := (units s).length

/-- Half of a surrogate pair: a unit that spells no character on its own. -/
def isSurrogate (unit : Nat) : Bool := decide (0xD800 ≤ unit) && decide (unit ≤ 0xDFFF)

/-- One unit shown as text. Half a pair is shown as the replacement character. -/
def showUnit (unit : Nat) : Char :=
  if isSurrogate unit then '\ufffd' else Char.ofNat unit

@[simp] theorem units_append (s t : String) : units (s ++ t) = units s ++ units t := by
  simp [units]

@[simp] theorem width_append (s t : String) : width (s ++ t) = width s + width t := by
  simp [width]

/-- Characters below U+10000 are their own unit. -/
theorem charUnits_of_lt {c : Char} (h : c.toNat < 0x10000) : charUnits c = [c.toNat] := by
  simp [charUnits, h]

/-! ## 2. Back to characters -/

def pairChar (high low : Nat) : Char :=
  Char.ofNat (0x10000 + (high - 0xD800) * 0x400 + (low - 0xDC00))

/-- The characters that units spell. Half a pair on its own is read as the replacement character. -/
def ofUnits : List Nat → List Char
  | [] => []
  | [unit] => [showUnit unit]
  | high :: low :: rest =>
    if 0xD800 ≤ high ∧ high < 0xDC00 ∧ 0xDC00 ≤ low ∧ low ≤ 0xDFFF then
      pairChar high low :: ofUnits rest
    else showUnit high :: ofUnits (low :: rest)

theorem ofUnits_cons_of_not_surrogate {unit : Nat} (h : isSurrogate unit = false)
    (rest : List Nat) : ofUnits (unit :: rest) = Char.ofNat unit :: ofUnits rest := by
  have shown : showUnit unit = Char.ofNat unit := by simp [showUnit, h]
  have outside : ¬(0xD800 ≤ unit ∧ unit < 0xDC00) := by
    simp only [isSurrogate, Bool.and_eq_false_iff, decide_eq_false_iff_not] at h
    omega
  cases rest with
  | nil => simp [ofUnits, shown]
  | cons next more =>
    have : ¬(0xD800 ≤ unit ∧ unit < 0xDC00 ∧ 0xDC00 ≤ next ∧ next ≤ 0xDFFF) :=
      fun e => outside ⟨e.1, e.2.1⟩
    simp only [ofUnits, this, if_false, shown]

/-- A character is one unit that is no half, or the two halves of a pair. -/
theorem charUnits_cases (c : Char) :
    (charUnits c = [c.toNat] ∧ isSurrogate c.toNat = false) ∨
      ∃ high low, charUnits c = [high, low] ∧
        (0xD800 ≤ high ∧ high < 0xDC00 ∧ 0xDC00 ≤ low ∧ low ≤ 0xDFFF) ∧ pairChar high low = c := by
  have valid : c.toNat < 0xD800 ∨ (0xDFFF < c.toNat ∧ c.toNat < 0x110000) := c.valid
  by_cases small : c.toNat < 0x10000
  · refine .inl ⟨charUnits_of_lt small, ?_⟩
    simp only [isSurrogate, Bool.and_eq_false_iff, decide_eq_false_iff_not]
    omega
  · have whole : 0x10000 + (0xD800 + (c.toNat - 0x10000) / 0x400 - 0xD800) * 0x400 +
        (0xDC00 + (c.toNat - 0x10000) % 0x400 - 0xDC00) = c.toNat := by omega
    refine .inr ⟨_, _, by rw [charUnits, if_neg small], by omega, ?_⟩
    rw [pairChar, whole, Char.ofNat_toNat]

/-- The units of characters spell those characters. -/
theorem ofUnits_charUnits (cs : List Char) : ofUnits (cs.flatMap charUnits) = cs := by
  induction cs with
  | nil => rfl
  | cons c rest ih =>
    rw [List.flatMap_cons]
    rcases charUnits_cases c with ⟨single, whole⟩ | ⟨high, low, two, halves, pair⟩
    · rw [single, List.singleton_append, ofUnits_cons_of_not_surrogate whole, ih,
        Char.ofNat_toNat]
    · rw [two, List.cons_append, List.singleton_append, ofUnits, if_pos halves, pair, ih]

/-- Texts with the same units are the same. -/
theorem units_injective {s t : String} (h : units s = units t) : s = t := by
  apply String.ext
  rw [← ofUnits_charUnits s.toList, ← ofUnits_charUnits t.toList]
  exact congrArg ofUnits h

/-! ## 3. Padding -/

def padEnd (column : Nat) (s : String) : String :=
  s ++ String.ofList (List.replicate (column - width s) ' ')

def padStart (column : Nat) (s : String) : String :=
  String.ofList (List.replicate (column - width s) ' ') ++ s

theorem width_blanks (n : Nat) : width (String.ofList (List.replicate n ' ')) = n := by
  simp only [width, units, String.toList_ofList, List.length_flatMap, List.map_replicate,
    List.sum_replicate_nat]
  simp [charUnits]

theorem width_padStart {column : Nat} {s : String} (h : width s ≤ column) :
    width (padStart column s) = column := by
  simp only [padStart, width_append, width_blanks]
  omega

/-! ## 4. Order -/

/-- Texts in the order of their units, a text before its extensions. -/
def compareUnits (s t : String) : Ordering := compare (units s) (units t)

instance : Std.TransCmp compareUnits where
  eq_swap := by
    unfold compareUnits
    exact Std.OrientedCmp.eq_swap
  isLE_trans := by
    unfold compareUnits
    exact Std.TransCmp.isLE_trans

/-- Only equal texts have no order between them. -/
theorem eq_of_compareUnits {s t : String} (h : compareUnits s t = .eq) : s = t := by
  unfold compareUnits at h
  exact units_injective (Std.LawfulEqCmp.eq_of_compare h)

end BenchSettings.Text
