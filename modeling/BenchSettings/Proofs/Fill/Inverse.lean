/-
BenchSettings.Proofs.Fill.Inverse — writing bytes in hex and reading them back.

Encoding and decoding are inverse to one another but for two things. Decoding
copies what it reads, so bytes that are no whole elements come back several
times; and encoding writes capitals only, so a text comes back in capitals.
`decode_hex_copies` and `hex_of_decode` say exactly that, one for each way
around.

From there on nothing changes any more. What was decoded is whole elements,
which encoding and decoding leave as they are, and letters count alike in
either case (`decode_of_toUpper`).
-/
import BenchSettings.Proofs.Fill.Decoding

namespace BenchSettings

/-! ## 1. Digits and their capitals -/

namespace Text

theorem toUpper_eq_self {c : Char} (other : c.toNat < 97 ∨ 122 < c.toNat) : c.toUpper = c := by
  have outside : ¬('a'.val ≤ c.val ∧ c.val ≤ 'z'.val) := by
    rintro ⟨lo, hi⟩
    have lo' : 97 ≤ c.toNat := lo
    have hi' : c.toNat ≤ 122 := hi
    omega
  exact dif_neg outside

namespace Hex

/-- Encoding writes the capital of the digit that was read. -/
theorem upper_of_digit? {c : Char} {value : Nat} (h : digit? c.toNat = some value) :
    upper value = c.toUpper := by
  have all : digits.all (fun c => (digit? c.toNat).map upper = some c.toUpper) = true := by decide
  have capital : (digit? c.toNat).map upper = some c.toUpper := by
    simpa using List.all_eq_true.1 all c ((isSome_digit?_iff c).1 (by rw [h]; rfl))
  rw [h] at capital
  exact Option.some.inj capital

/-- A character and its capital spell units that are worth the same. -/
theorem map_digit?_charUnits_toUpper (c : Char) :
    (charUnits c.toUpper).map digit? = (charUnits c).map digit? := by
  have letters : ∀ unit < 123, 97 ≤ unit →
      (charUnits (Char.ofNat unit).toUpper).map digit? =
        (charUnits (Char.ofNat unit)).map digit? := by decide
  by_cases letter : 97 ≤ c.toNat ∧ c.toNat < 123
  · simpa using letters c.toNat letter.2 letter.1
  · rw [toUpper_eq_self (by omega)]

theorem map_digit?_units_toUpper (text : String) :
    (units text.toUpper).map digit? = (units text).map digit? := by
  rw [String.toUpper, units, units, String.toList_map, List.flatMap_map, List.map_flatMap,
    List.map_flatMap]
  simp only [map_digit?_charUnits_toUpper]

end Hex

/-- Hex digits are units of their own. -/
theorem units_of_digits {text : String} (all : ∀ c ∈ text.toList, c ∈ Hex.digits) :
    units text = text.toList.map Char.toNat := by
  have single : ∀ c ∈ text.toList, charUnits c = [c.toNat] := fun c mem =>
    Hex.charUnits_of_mem_digits (all c mem)
  rw [units, List.map_eq_flatMap, List.flatMap_def, List.flatMap_def, List.map_congr_left single]

end Text

namespace FillPattern

/-! ## 2. Decoded digits, written again -/

theorem byteDigits_ofNat {high low : Nat} (hhigh : high < 16) (hlow : low < 16) :
    byteDigits (UInt8.ofNat (16 * high + low)) = [Text.Hex.upper high, Text.Hex.upper low] := by
  rw [byteDigits, UInt8.toNat_ofNat', Nat.mod_eq_of_lt (by omega),
    show (16 * high + low) / 16 = high by omega, show (16 * high + low) % 16 = low by omega]

/-- Pairs of digits are written as their capitals. -/
theorem flatMap_byteDigits_of_decodePairs : ∀ {cs : List Char} {bytes : List UInt8},
    decodePairs (cs.map Char.toNat) = .ok bytes → bytes.flatMap byteDigits = cs.map Char.toUpper
  | [], _, h => by
    cases h
    rfl
  | [_], _, h => by cases h
  | a :: b :: rest, _, h => by
    obtain ⟨high, low, more, hhigh, hlow, hmore, rfl⟩ := decodePairs_cons_eq_ok_iff.1 h
    rw [List.flatMap_cons, flatMap_byteDigits_of_decodePairs hmore,
      byteDigits_ofNat (Text.Hex.lt_of_digit? hhigh) (Text.Hex.lt_of_digit? hlow),
      Text.Hex.upper_of_digit? hhigh, Text.Hex.upper_of_digit? hlow]
    rfl

theorem flatMap_replicate_flatten {α β : Type} (f : α → List β) (xs : List α) (n : Nat) :
    (List.replicate n xs).flatten.flatMap f = (List.replicate n (xs.flatMap f)).flatten := by
  induction n with
  | zero => rfl
  | succ n ih => rw [List.replicate_succ, List.flatten_cons, List.flatMap_append, ih,
      List.replicate_succ, List.flatten_cons]

theorem toList_join_replicate (n : Nat) (s : String) :
    (String.join (List.replicate n s)).toList = (List.replicate n s.toList).flatten := by
  rw [String.toList_join, List.flatMap_def, List.map_replicate]

/-- What is written for the bytes of a pattern is the pattern in capitals, copied as they are. -/
theorem hex_of_decode {text : String} {bytes : List UInt8} (h : decode (some text) = .ok bytes) :
    hex bytes = String.join (List.replicate (copies (Text.width text)) text.toUpper) := by
  have digits := (digits_of_decode h).2
  obtain ⟨spelled, hs, rfl⟩ := decode_some_eq_ok_iff.1 h
  rw [Text.units_of_digits digits] at hs
  apply String.ext
  rw [hex, String.toList_ofList, flatMap_replicate_flatten, flatMap_byteDigits_of_decodePairs hs,
    toList_join_replicate, String.toUpper, String.toList_map]
  rfl

/-! ## 3. Written bytes, decoded again -/

theorem decode_hex_copies (bytes : List UInt8) :
    decode (some (hex bytes)) =
      .ok (List.replicate (copies (2 * bytes.length : Nat)) bytes).flatten := by
  refine decode_some_eq_ok_iff.2 ⟨bytes, decodePairs_hex bytes, ?_⟩
  rw [length_of_decodePairs (decodePairs_hex bytes)]

/-! ## 4. Either case -/

/-- Only what the units are worth counts. -/
theorem decodePairs_congr {units others : List Nat}
    (same : units.map Text.Hex.digit? = others.map Text.Hex.digit?) {bytes : List UInt8}
    (h : decodePairs units = .ok bytes) : decodePairs others = .ok bytes := by
  induction units using decodePairs.induct generalizing others bytes with
  | case1 =>
    rw [List.map_nil, eq_comm, List.map_eq_nil_iff] at same
    rw [same, h]
  | case2 => cases h
  | case3 high low rest ih =>
    obtain ⟨hi, lo, more, hhigh, hlow, hmore, rfl⟩ := decodePairs_cons_eq_ok_iff.1 h
    rw [List.map_cons, List.map_cons] at same
    obtain ⟨high', _, rfl, sameHigh, sameRest⟩ := List.map_eq_cons_iff.1 same.symm
    obtain ⟨low', rest', rfl, sameLow, sameRest'⟩ := List.map_eq_cons_iff.1 sameRest
    exact decodePairs_cons_eq_ok_iff.2
      ⟨hi, lo, more, sameHigh.trans hhigh, sameLow.trans hlow, ih sameRest'.symm hmore, rfl⟩

theorem decode_of_toUpper {text other : String} (same : text.toUpper = other.toUpper)
    {bytes : List UInt8} (h : decode (some text) = .ok bytes) :
    decode (some other) = .ok bytes := by
  have worth : (Text.units text).map Text.Hex.digit? = (Text.units other).map Text.Hex.digit? := by
    rw [← Text.Hex.map_digit?_units_toUpper, same, Text.Hex.map_digit?_units_toUpper]
  have width : (Text.units text).length = (Text.units other).length := by
    simpa using congrArg List.length worth
  obtain ⟨spelled, hs, rfl⟩ := decode_some_eq_ok_iff.1 h
  exact decode_some_eq_ok_iff.2 ⟨spelled, decodePairs_congr worth hs, by rw [width]⟩

/-- Encoding and decoding undo one another up to copies: bytes that are written and read come back
as many times as their digits are copied, once if they are whole elements, and a pattern that is
read and written comes back in capitals as many times. So decoding, encoding and decoding once more
is decoding once, and patterns that differ only in the case of their letters decode alike. -/
theorem hex_decode_inverse :
    (∀ bytes, decode (some (hex bytes)) =
      .ok (List.replicate (copies (2 * bytes.length : Nat)) bytes).flatten) ∧
    (∀ bytes : List UInt8, bytes.length % 4 = 0 → decode (some (hex bytes)) = .ok bytes) ∧
    (∀ text bytes, decode (some text) = .ok bytes →
      hex bytes = String.join (List.replicate (copies (Text.width text)) text.toUpper) ∧
      decode (some (hex bytes)) = .ok bytes) ∧
    ∀ text other, text.toUpper = other.toUpper →
      ∀ bytes, decode (some text) = .ok bytes ↔ decode (some other) = .ok bytes := by
  refine ⟨decode_hex_copies, fun _ => decode_hex, fun text bytes h => ⟨hex_of_decode h, ?_⟩, ?_⟩
  · exact decode_hex (length_decode_mod h)
  · exact fun text other same bytes => ⟨decode_of_toUpper same, decode_of_toUpper same.symm⟩

end FillPattern

end BenchSettings
