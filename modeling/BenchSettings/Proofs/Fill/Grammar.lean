/-
BenchSettings.Proofs.Fill.Grammar — which texts are fill patterns, and what is
said of the others.

A pattern is an even number of hex digits. Decoding takes its units in pairs,
but what it says is what one would say who reads them one after the other:
`decodePairs_eq_ok_iff` has no pairs in it, and the unit that an error names
is the first that is no digit, whether it comes first or second in its pair
(`decodePairs_of_misspelled`). That the units pair up is asked before any unit
is looked at.

A decoded pattern is the spelled bytes, copied as often as it takes to fill
whole elements and no oftener (`exists_copies_of_decode`).

A text that was read from escapes can have half of a surrogate pair on its own,
for which the variable then has the replacement character. The units are as
many as before, and none that is a digit has changed (`map_showUnit_units`), so
`Decided`, which says all this, holds of the units of such a text as well.
-/
import BenchSettings.Proofs.Fill.Decoding
import BenchSettings.Text.Loose

namespace BenchSettings

/-! ## 1. Units as they are shown -/

namespace Text

end Text

/-! ## 2. Digits among the units -/

namespace Text.Hex

/-- The units that are hex digits. -/
def digitUnits : List Nat := digits.map Char.toNat

theorem lt_of_mem_digitUnits {unit : Nat} (digit : unit ∈ digitUnits) : unit < 103 := by
  have all : ∀ unit ∈ digitUnits, unit < 103 := by decide
  exact all unit digit

theorem isSome_digit?_iff_mem (unit : Nat) :
    (digit? unit).isSome = true ↔ unit ∈ digitUnits := by
  have all : ∀ unit < 103, (digit? unit).isSome = true ↔ unit ∈ digitUnits := by decide
  constructor
  · exact fun some => (all unit (lt_of_isSome_digit? some)).1 some
  · exact fun digit => (all unit (lt_of_mem_digitUnits digit)).2 digit

end Text.Hex

/-! ## 3. The pairs of a pattern -/

namespace FillPattern

open Text.Hex (digitUnits)

theorem exists_digit {unit : Nat} (digit : unit ∈ digitUnits) :
    ∃ value, nibble unit = .ok value := by
  obtain ⟨value, h⟩ := Option.isSome_iff_exists.1 ((Text.Hex.isSome_digit?_iff_mem unit).2 digit)
  exact ⟨value, nibble_eq_ok_iff.2 h⟩

theorem nibble_of_not_mem {unit : Nat} (other : unit ∉ digitUnits) :
    nibble unit = .error (.badDigit unit) := by
  have none : Text.Hex.digit? unit = none := by
    rw [← Option.not_isSome_iff_eq_none, Text.Hex.isSome_digit?_iff_mem]
    exact other
  rw [nibble, none]

theorem exists_decodePairs {units : List Nat} (even : units.length % 2 = 0)
    (all : ∀ unit ∈ units, unit ∈ digitUnits) : ∃ bytes, decodePairs units = .ok bytes := by
  induction units using decodePairs.induct with
  | case1 => exact ⟨[], rfl⟩
  | case2 => cases even
  | case3 high low rest ih =>
    obtain ⟨more, hmore⟩ := ih (by simp only [List.length_cons] at even; omega)
      fun unit mem => all unit (by simp [mem])
    obtain ⟨h, hhigh⟩ := exists_digit (all high (by simp))
    obtain ⟨l, hlow⟩ := exists_digit (all low (by simp))
    exact ⟨_, decodePairs_cons_eq_ok_iff.2
      ⟨h, l, more, nibble_eq_ok_iff.1 hhigh, nibble_eq_ok_iff.1 hlow, hmore, rfl⟩⟩

/-- Units decode when they pair up and are digits. -/
theorem decodePairs_eq_ok_iff {units : List Nat} :
    (∃ bytes, decodePairs units = .ok bytes) ↔
      units.length % 2 = 0 ∧ ∀ unit ∈ units, unit ∈ digitUnits := by
  constructor
  · rintro ⟨bytes, h⟩
    have pairs := length_of_decodePairs h
    refine ⟨by omega, fun unit mem => ?_⟩
    exact (Text.Hex.isSome_digit?_iff_mem unit).1 (isSome_digit?_of_decodePairs h unit mem)
  · rintro ⟨even, all⟩
    exact exists_decodePairs even all

/-- The first unit that is no digit is the one an error names. The units in front of it are taken
off in pairs, so it comes up as the first or as the second of its own. -/
theorem decodePairs_of_misspelled {before after : List Nat} {unit : Nat}
    (even : (before ++ unit :: after).length % 2 = 0)
    (digits : ∀ u ∈ before, u ∈ digitUnits) (other : unit ∉ digitUnits) :
    decodePairs (before ++ unit :: after) = .error (.badDigit unit) := by
  induction before using decodePairs.induct with
  | case1 =>
    cases after with
    | nil => cases even
    | cons low rest =>
      rw [List.nil_append, decodePairs, nibble_of_not_mem other]
      rfl
  | case2 high =>
    obtain ⟨h, hhigh⟩ := exists_digit (digits high (by simp))
    rw [List.singleton_append, decodePairs, hhigh, nibble_of_not_mem other]
    rfl
  | case3 high low rest ih =>
    obtain ⟨h, hhigh⟩ := exists_digit (digits high (by simp))
    obtain ⟨l, hlow⟩ := exists_digit (digits low (by simp))
    have later := ih (by simp only [List.cons_append, List.length_cons] at even; omega)
      fun u mem => digits u (by simp [mem])
    rw [List.cons_append, List.cons_append, decodePairs, hhigh, hlow, later]
    rfl

/-- Decoding asks for the digits once the units pair up. -/
theorem decode_of_misspelled {text : String} {before after : List Nat} {unit : Nat}
    (even : (Text.units text).length % 2 = 0) (parts : Text.units text = before ++ unit :: after)
    (digits : ∀ u ∈ before, u ∈ digitUnits) (other : unit ∉ digitUnits) :
    decode (some text) = .error (.badDigit unit) := by
  have paired : ¬(Text.units text).length % 2 = 1 := by omega
  simp only [decode, paired, if_false]
  rw [parts] at even ⊢
  rw [decodePairs_of_misspelled even digits other]
  rfl

/-- Where not all units are digits, one comes first that is none. -/
theorem exists_first_misspelled {units : List Nat} (some : ∃ unit ∈ units, unit ∉ digitUnits) :
    ∃ before unit after, units = before ++ unit :: after ∧
      (∀ u ∈ before, u ∈ digitUnits) ∧ unit ∉ digitUnits := by
  obtain ⟨unit, found⟩ : ∃ unit, units.find? (fun u => decide (u ∉ digitUnits)) = .some unit := by
    rw [← Option.isSome_iff_exists, List.find?_isSome]
    simpa using some
  obtain ⟨other, before, after, parts, digits⟩ := List.find?_eq_some_iff_append.1 found
  exact ⟨before, unit, after, parts, by simpa using digits, by simpa using other⟩

/-! ## 4. The copies that are made -/

/-- The spelled bytes come first, then copies of them, as few as fill whole elements. -/
theorem exists_copies_of_decode {text : String} {bytes : List UInt8}
    (h : decode (some text) = .ok bytes) :
    ∃ copies, bytes = (List.replicate copies (bytes.take (Text.width text / 2))).flatten ∧
      ∀ n, 0 < Text.width text → 0 < n → 4 ∣ n * (Text.width text / 2) → copies ≤ n := by
  have least := length_decode h
  obtain ⟨spelled, hs, rfl⟩ := decode_some_eq_ok_iff.1 h
  have width := length_of_decodePairs hs
  have pairs : Text.width text / 2 = spelled.length := by
    rw [Text.width]
    omega
  have first : (List.replicate (copies (Text.units text).length) spelled).flatten.take
      spelled.length = spelled := by
    obtain ⟨more, hmore⟩ : ∃ more, copies (Text.units text).length = more + 1 :=
      Nat.exists_eq_add_of_le' (copies_pos _)
    rw [hmore, List.replicate_succ, List.flatten_cons, List.take_left]
  rw [pairs, first]
  refine ⟨_, rfl, fun n filled pos whole => ?_⟩
  rw [length_replicate_flatten, pairs] at least
  have enough : Nat.lcm elementSize spelled.length ∣ n * spelled.length :=
    Nat.lcm_dvd whole (Nat.dvd_mul_left _ _)
  rw [← least] at enough
  have nonempty : 0 < spelled.length := by
    rw [Text.width] at filled
    omega
  exact Nat.le_of_mul_le_mul_right (Nat.le_of_dvd (Nat.mul_pos pos nonempty) enough) nonempty

/-! ## 5. Every pattern decided -/

/-- What decoding a pattern of these units has to come to. -/
structure Decided (units : List Nat) (outcome : Except PatternError (List UInt8)) : Prop where
  accepted : (∃ bytes, outcome = .ok bytes) ↔
    units.length % 2 = 0 ∧ ∀ unit ∈ units, unit ∈ digitUnits
  unpaired : units.length % 2 = 1 → ∃ e, outcome = .error e ∧ e.code = "ODD_LENGTH_PATTERN"
  /-- The error names the unit that is the first of those that are no digits. -/
  misspelled : units.length % 2 = 0 → (∃ unit ∈ units, unit ∉ digitUnits) →
    ∃ before unit after, units = before ++ unit :: after ∧
      (∀ u ∈ before, u ∈ digitUnits) ∧ unit ∉ digitUnits ∧
      ∃ e, outcome = .error e ∧ e.code = "INVALID_HEX_DIGIT" ∧
        e.message = "FILL_PATTERN must contain only hex digits (0-9/a-f/A-F), not '" ++
          String.singleton (Text.showUnit unit) ++ "'"
  /-- The bytes of the pairs, copied as often as it takes to fill whole elements. -/
  tiled : ∀ bytes, outcome = .ok bytes →
    bytes.length = Nat.lcm 4 (units.length / 2) ∧
    ∃ copies, bytes = (List.replicate copies (bytes.take (units.length / 2))).flatten ∧
      ∀ n, 0 < units.length → 0 < n → 4 ∣ n * (units.length / 2) → copies ≤ n

theorem decided_units (text : String) : Decided (Text.units text) (decode (some text)) where
  accepted := by
    rw [← decodePairs_eq_ok_iff]
    constructor
    · rintro ⟨bytes, h⟩
      obtain ⟨spelled, hs, -⟩ := decode_some_eq_ok_iff.1 h
      exact ⟨spelled, hs⟩
    · rintro ⟨spelled, hs⟩
      exact ⟨_, decode_some_eq_ok_iff.2 ⟨spelled, hs, rfl⟩⟩
  unpaired odd := by
    refine ⟨.oddLength, ?_, rfl⟩
    simp only [decode, odd, if_true]
  misspelled even some := by
    obtain ⟨before, unit, after, parts, digits, other⟩ := exists_first_misspelled some
    exact ⟨before, unit, after, parts, digits, other, .badDigit unit,
      decode_of_misspelled even parts digits other, rfl, rfl⟩
  tiled _ h := ⟨length_decode h, exists_copies_of_decode h⟩

end FillPattern

end BenchSettings
