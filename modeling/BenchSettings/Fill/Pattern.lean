/-
BenchSettings.Fill.Pattern — fill patterns written in hex.

A fill pattern is a text of hex digits, two to a byte. Decoding (`decode`)
checks that the digits pair up, then that each unit is a digit, and repeats
the bytes one, two or four times so that they fill whole elements; an unset
pattern decodes to no bytes at all. Encoding (`hex`) writes two upper-case
digits for each byte.

`decodePairs_hex` is the law that ties the two: the pairs written for some
bytes decode to those bytes. `decode_some_eq_ok_iff` says what a decoded
pattern is, and `length_decode_mod` that it is whole elements.
-/
import BenchSettings.Setting.Table
import BenchSettings.Text.Hex
import BenchSettings.Text.Units

namespace BenchSettings

inductive PatternError where
  /-- The units do not pair up. -/
  | oddLength
  /-- The first unit that is no hex digit. -/
  | badDigit (unit : Nat)
  deriving DecidableEq, Repr

namespace PatternError

def code : PatternError → String
  | .oddLength => "ODD_LENGTH_PATTERN"
  | .badDigit _ => "INVALID_HEX_DIGIT"

def message : PatternError → String
  | .oddLength => "FILL_PATTERN must contain an even-number of hex digits"
  | .badDigit unit =>
    "FILL_PATTERN must contain only hex digits (0-9/a-f/A-F), not '" ++
      String.singleton (Text.showUnit unit) ++ "'"

end PatternError

namespace FillPattern

/-! ## 1. Digits -/

/-- The value of a unit that has to be a digit. -/
def nibble (unit : Nat) : Except PatternError Nat :=
  match Text.Hex.digit? unit with
  | some value => .ok value
  | none => .error (.badDigit unit)

/-! ## 2. Decoding -/

/-- The bytes spelled by pairs of digits. -/
def decodePairs : List Nat → Except PatternError (List UInt8)
  | [] => .ok []
  | [_] => .error .oddLength
  | high :: low :: rest => do
    let high ← nibble high
    let low ← nibble low
    let bytes ← decodePairs rest
    return UInt8.ofNat (16 * high + low) :: bytes

/-- How often the bytes of `length` digits are repeated to fill whole elements. The remainder takes
the sign of the length. -/
def copies (length : Int) : Nat :=
  match Int.tmod length 8 with
  | 0 => 1
  | 4 => 2
  | _ => 4

/-- The bytes of a pattern text: none for an unset pattern, and else the decoded digits, repeated to
fill whole elements. -/
def decode : Option String → Except PatternError (List UInt8)
  | none => .ok []
  | some text =>
    let units := Text.units text
    if units.length % 2 = 1 then .error .oddLength
    else do
      let bytes ← decodePairs units
      return (List.replicate (copies units.length) bytes).flatten

/-! ## 3. Encoding -/

def byteDigits (byte : UInt8) : List Char :=
  [Text.Hex.upper (byte.toNat / 16), Text.Hex.upper (byte.toNat % 16)]

/-- Bytes as upper-case hex digits. -/
def hex (bytes : List UInt8) : String := String.ofList (bytes.flatMap byteDigits)

/-! ## 4. Writing, then reading -/

theorem nibble_upper {value : Nat} (h : value < 16) :
    nibble (Text.Hex.upper value).toNat = .ok value := by
  simp [nibble, Text.Hex.digit?_upper h]

theorem units_hex (bytes : List UInt8) :
    Text.units (hex bytes) = bytes.flatMap fun b =>
      [(Text.Hex.upper (b.toNat / 16)).toNat, (Text.Hex.upper (b.toNat % 16)).toNat] := by
  have ascii : ∀ v < 16, Text.charUnits (Text.Hex.upper v) = [(Text.Hex.upper v).toNat] := by decide
  have one (b : UInt8) : (byteDigits b).flatMap Text.charUnits =
      [(Text.Hex.upper (b.toNat / 16)).toNat, (Text.Hex.upper (b.toNat % 16)).toNat] := by
    have low : b.toNat % 16 < 16 := Nat.mod_lt _ (by decide)
    have high : b.toNat / 16 < 16 := by have := b.toNat_lt; omega
    simp [byteDigits, ascii _ low, ascii _ high]
  simp only [Text.units, hex, String.toList_ofList, List.flatMap_assoc, one]

/-- The digits written for bytes are read as those bytes. -/
theorem decodePairs_hex (bytes : List UInt8) :
    decodePairs (Text.units (hex bytes)) = .ok bytes := by
  rw [units_hex]
  induction bytes with
  | nil => rfl
  | cons b rest ih =>
    have low : b.toNat % 16 < 16 := Nat.mod_lt _ (by decide)
    have high : b.toNat / 16 < 16 := by have := b.toNat_lt; omega
    have whole : 16 * (b.toNat / 16) + b.toNat % 16 = b.toNat := Nat.div_add_mod _ _
    simp only [List.flatMap_cons, List.cons_append, List.nil_append, decodePairs,
      nibble_upper low, nibble_upper high, ih, bind, Except.bind, pure, Except.pure, whole,
      UInt8.ofNat_toNat]

/-- Different bytes are written differently. -/
theorem hex_injective {bytes others : List UInt8} (h : hex bytes = hex others) :
    bytes = others := by
  have read := decodePairs_hex bytes
  rw [h, decodePairs_hex others] at read
  exact (Except.ok.inj read).symm

theorem length_hex (bytes : List UInt8) : (hex bytes).toList.length = 2 * bytes.length := by
  rw [hex, String.toList_ofList]
  induction bytes with
  | nil => rfl
  | cons b rest ih =>
    rw [List.flatMap_cons, List.length_append, ih, List.length_cons]
    simp only [byteDigits, List.length_cons, List.length_nil]
    omega

theorem mem_upperDigits_of_mem_hex {bytes : List UInt8} {c : Char} (h : c ∈ (hex bytes).toList) :
    c ∈ Text.Hex.upperDigits := by
  rw [hex, String.toList_ofList] at h
  obtain ⟨b, -, digit⟩ := List.mem_flatMap.1 h
  have high : b.toNat / 16 < 16 := by have := b.toNat_lt; omega
  simp only [byteDigits, List.mem_cons, List.not_mem_nil, or_false] at digit
  rcases digit with rfl | rfl
  · exact Text.Hex.upper_mem high
  · exact Text.Hex.upper_mem (Nat.mod_lt _ (by decide))

/-! ## 5. What decoding gives -/

theorem nibble_eq_ok_iff {unit value : Nat} :
    nibble unit = .ok value ↔ Text.Hex.digit? unit = some value := by
  unfold nibble
  split <;> simp_all

theorem decodePairs_cons_eq_ok_iff {high low : Nat} {rest : List Nat} {bytes : List UInt8} :
    decodePairs (high :: low :: rest) = .ok bytes ↔
      ∃ h l more, Text.Hex.digit? high = some h ∧ Text.Hex.digit? low = some l ∧
        decodePairs rest = .ok more ∧ bytes = UInt8.ofNat (16 * h + l) :: more := by
  simp only [decodePairs, bind, Except.bind, pure, Except.pure, ← nibble_eq_ok_iff]
  cases nibble high with
  | error e => simp
  | ok h =>
    cases nibble low with
    | error e => simp
    | ok l =>
      cases decodePairs rest with
      | error e => simp
      | ok more => simp [eq_comm]

theorem length_of_decodePairs {units : List Nat} {bytes : List UInt8}
    (h : decodePairs units = .ok bytes) : units.length = 2 * bytes.length := by
  induction units using decodePairs.induct generalizing bytes with
  | case1 => cases h; rfl
  | case2 => cases h
  | case3 high low rest ih =>
    obtain ⟨_, _, more, -, -, hmore, rfl⟩ := decodePairs_cons_eq_ok_iff.1 h
    have := ih hmore
    simp only [List.length_cons]
    omega

/-- A set pattern decodes exactly when its units pair up and are digits. -/
theorem decode_some_eq_ok_iff {text : String} {bytes : List UInt8} :
    decode (some text) = .ok bytes ↔
      ∃ spelled, decodePairs (Text.units text) = .ok spelled ∧
        bytes = (List.replicate (copies (Text.units text).length) spelled).flatten := by
  simp only [decode, bind, Except.bind, pure, Except.pure]
  cases h : decodePairs (Text.units text) with
  | error e => split <;> simp
  | ok spelled =>
    have even : ¬(Text.units text).length % 2 = 1 := by
      have := length_of_decodePairs h
      omega
    simp [even, eq_comm]

theorem copies_natCast (n : Nat) :
    copies n = if n % 8 = 0 then 1 else if n % 8 = 4 then 2 else 4 := by
  have remainder : Int.tmod (n : Int) 8 = ((n % 8 : Nat) : Int) := rfl
  have small : n % 8 < 8 := Nat.mod_lt _ (by decide)
  unfold copies
  rw [remainder]
  generalize n % 8 = r at small
  revert r
  decide

theorem copies_pos (n : Nat) : 0 < copies n := by
  rw [copies_natCast]
  split
  · decide
  · split <;> decide

theorem length_replicate_flatten {α : Type} (xs : List α) (copies : Nat) :
    (List.replicate copies xs).flatten.length = copies * xs.length := by
  rw [List.length_flatten, List.map_replicate, List.sum_replicate_nat]

/-- The bytes of a pattern are whole elements. -/
theorem length_decode_mod {pattern : Option String} {bytes : List UInt8}
    (h : decode pattern = .ok bytes) : bytes.length % elementSize = 0 := by
  cases pattern with
  | none => cases h; rfl
  | some text =>
    obtain ⟨spelled, hs, rfl⟩ := decode_some_eq_ok_iff.1 h
    rw [length_replicate_flatten, length_of_decodePairs hs, copies_natCast, elementSize]
    split
    · omega
    · split <;> omega

/-- Bytes that are whole elements are read back from their digits, and repeated no further. -/
theorem decode_hex {bytes : List UInt8} (whole : bytes.length % elementSize = 0) :
    decode (some (hex bytes)) = .ok bytes := by
  have digits := length_of_decodePairs (decodePairs_hex bytes)
  have once : copies (Text.units (hex bytes)).length = 1 := by
    rw [elementSize] at whole
    rw [copies_natCast, digits, if_pos (by omega)]
  refine decode_some_eq_ok_iff.2 ⟨bytes, decodePairs_hex bytes, ?_⟩
  rw [once, List.replicate_one, List.flatten_singleton]

end FillPattern

end BenchSettings
