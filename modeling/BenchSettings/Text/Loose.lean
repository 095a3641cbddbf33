/-
BenchSettings.Text.Loose — texts in which half of a surrogate pair can stand
alone.

An escape in a file can spell any 16-bit unit, so a text that was read from
escapes is a run of characters and of halves of pairs that found no other
half. Such a text is not a `String`; it becomes one when its halves are shown
as the replacement character (`Loose.shown`). Two texts with different halves
are different all the same, which matters where texts are names.

`Spelled` is what readers and printers need to know of a type of texts. It has
two instances, `String` and `Loose`.
-/
import BenchSettings.Text.Units

namespace BenchSettings.Text

/-! ## 1. Signs -/

/-- One step of a text: a character, or half of a pair. -/
inductive Sign where
  | char (c : Char)
  | half (unit : Nat)
  deriving DecidableEq, Repr

namespace Sign

def ofUnit (unit : Nat) : Sign :=
  if isSurrogate unit then .half unit else .char (Char.ofNat unit)

def shown : Sign → Char
  | .char c => c
  | .half _ => '\ufffd'

def ofUnits : List Nat → List Sign
  | [] => []
  | [unit] => [ofUnit unit]
  | high :: low :: rest =>
    if 0xD800 ≤ high ∧ high < 0xDC00 ∧ 0xDC00 ≤ low ∧ low ≤ 0xDFFF then
      .char (pairChar high low) :: ofUnits rest
    else ofUnit high :: ofUnits (low :: rest)

theorem ofUnits_cons_of_not_surrogate {unit : Nat} (h : isSurrogate unit = false)
    (rest : List Nat) : ofUnits (unit :: rest) = .char (Char.ofNat unit) :: ofUnits rest := by
  have whole : ofUnit unit = .char (Char.ofNat unit) := by simp [ofUnit, h]
  have outside : ¬(0xD800 ≤ unit ∧ unit < 0xDC00) := by
    simp only [isSurrogate, Bool.and_eq_false_iff, decide_eq_false_iff_not] at h
    omega
  cases rest with
  | nil => simp [ofUnits, whole]
  | cons next more =>
    have : ¬(0xD800 ≤ unit ∧ unit < 0xDC00 ∧ 0xDC00 ≤ next ∧ next ≤ 0xDFFF) :=
      fun e => outside ⟨e.1, e.2.1⟩
    simp only [ofUnits, this, if_false, whole]

/-- The units of characters are read as these characters, with no half among them. -/
theorem ofUnits_charUnits (cs : List Char) : ofUnits (cs.flatMap charUnits) = cs.map .char := by
  induction cs with
  | nil => rfl
  | cons c rest ih =>
    rw [List.flatMap_cons, List.map_cons]
    rcases charUnits_cases c with ⟨single, whole⟩ | ⟨high, low, two, halves, pair⟩
    · rw [single, List.singleton_append, ofUnits_cons_of_not_surrogate whole, ih,
        Char.ofNat_toNat]
    · rw [two, List.cons_append, List.singleton_append, ofUnits, if_pos halves, pair, ih]

end Sign

/-! ## 2. Loose texts -/

/-- A text of signs. -/
structure Loose where
  signs : List Sign
  deriving DecidableEq, Repr, Inhabited

namespace Loose

def ofString (s : String) : Loose := ⟨s.toList.map .char⟩

instance : Coe String Loose := ⟨ofString⟩

def ofUnits (units : List Nat) : Loose := ⟨Sign.ofUnits units⟩

/-- The text with the replacement character for every half of a pair. -/
def shown (t : Loose) : String := String.ofList (t.signs.map Sign.shown)

theorem shown_ofString (s : String) : (ofString s).shown = s := by
  simp [shown, ofString, Function.comp_def, Sign.shown]

/-- A text without the replacement character is what is shown of no text but itself. -/
theorem eq_ofString_of_shown {t : Loose} {s : String} (same : t.shown = s)
    (plain : '\ufffd' ∉ s.toList) : t = ofString s := by
  obtain ⟨signs⟩ := t
  have chars : s.toList = signs.map Sign.shown := by
    rw [← same, shown, String.toList_ofList]
  have whole : ∀ sign ∈ signs, Sign.char sign.shown = sign := by
    intro sign mem
    cases sign with
    | char c => rfl
    | half unit => exact absurd (chars ▸ List.mem_map_of_mem mem) plain
  have kept : signs.map (Sign.char ∘ Sign.shown) = signs :=
    (List.map_congr_left whole).trans (List.map_id signs)
  rw [ofString, chars, List.map_map, kept]

end Loose

/-! ## 3. Types of texts -/

/-- A type of texts that units can spell, and that can be gone through sign by sign. -/
class Spelled (τ : Type) where
  ofUnits : List Nat → τ
  signs : τ → List Sign

instance : Spelled String where
  ofUnits units := String.ofList (Text.ofUnits units)
  signs s := s.toList.map .char

instance : Spelled Loose where
  ofUnits := Loose.ofUnits
  signs := Loose.signs

end BenchSettings.Text
