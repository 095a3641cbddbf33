/-
BenchSettings.Proofs.Fill.Decoding — what a decoded pattern says of its text.

A pattern that decodes is a text of hex digits, an even number of them
(`digits_of_decode`). Its bytes are those that the pairs of digits spell, from
the start again after the last pair (`getElem?_decode`), and they are as few
copies as fill whole elements: the length is the least common multiple of the
length of an element and the number of pairs (`length_decode`).
-/
import BenchSettings.Proofs.Fill.Tiling
import BenchSettings.Proofs.Text.Classes

namespace BenchSettings

/-! ## 1. Hex digits as characters -/

namespace Text.Hex

/-- The hex digits of either case. -/
def digits : List Char := "0123456789abcdefABCDEF".toList

theorem lt_of_isSome_digit? {unit : Nat} (digit : (digit? unit).isSome = true) : unit < 103 := by
  refine Nat.lt_of_not_le fun great => ?_
  unfold digit? at digit
  rw [if_neg (by omega), if_neg (by omega), if_neg (by omega)] at digit
  cases digit

theorem isSome_digit?_iff (c : Char) : (digit? c.toNat).isSome = true ↔ c ∈ digits := by
  refine iff_mem_of_below (fun c => (digit? c.toNat).isSome) 103 ?_ (by decide) (by decide)
  exact fun c digit => lt_of_isSome_digit? digit

/-- A digit is a unit of its own. -/
theorem charUnits_of_mem_digits {c : Char} (digit : c ∈ digits) : charUnits c = [c.toNat] := by
  have small := lt_of_isSome_digit? ((isSome_digit?_iff c).2 digit)
  exact charUnits_of_lt (by omega)

/-- Units are digits exactly when the characters they spell are: no half of a pair is one. -/
theorem forall_units_isSome_digit?_iff (text : String) :
    (∀ unit ∈ units text, (digit? unit).isSome = true) ↔ ∀ c ∈ text.toList, c ∈ digits := by
  simp only [units, List.mem_flatMap, forall_exists_index, and_imp]
  constructor
  · intro all c mem
    by_cases small : c.toNat < 0x10000
    · rw [← isSome_digit?_iff]
      exact all c.toNat c mem (by simp [charUnits_of_lt small])
    · have half := all (0xD800 + (c.toNat - 0x10000) / 0x400) c mem (by simp [charUnits, small])
      have small := lt_of_isSome_digit? half
      omega
  · intro all unit c mem spells
    rw [charUnits_of_mem_digits (all c mem), List.mem_singleton] at spells
    rw [spells, isSome_digit?_iff]
    exact all c mem

end Text.Hex

/-! ## 2. Decoded patterns -/

namespace FillPattern

theorem isSome_digit?_of_decodePairs {units : List Nat} {bytes : List UInt8}
    (h : decodePairs units = .ok bytes) : ∀ unit ∈ units, (Text.Hex.digit? unit).isSome = true := by
  induction units using decodePairs.induct generalizing bytes with
  | case1 => simp
  | case2 => cases h
  | case3 high low rest ih =>
    obtain ⟨hi, lo, more, hhigh, hlow, hmore, -⟩ := decodePairs_cons_eq_ok_iff.1 h
    intro unit mem
    rcases List.mem_cons.1 mem with rfl | mem
    · rw [hhigh]
      rfl
    · rcases List.mem_cons.1 mem with rfl | mem
      · rw [hlow]
        rfl
      · exact ih hmore unit mem

section

variable {text : String} {bytes : List UInt8} (h : decode (some text) = .ok bytes)

include h

/-- A pattern that decodes is hex digits, which pair up. -/
theorem digits_of_decode : Text.width text % 2 = 0 ∧ ∀ c ∈ text.toList, c ∈ Text.Hex.digits := by
  obtain ⟨spelled, hs, -⟩ := decode_some_eq_ok_iff.1 h
  constructor
  · rw [Text.width, length_of_decodePairs hs]
    omega
  · exact (Text.Hex.forall_units_isSome_digit?_iff text).1 (isSome_digit?_of_decodePairs hs)

/-- The copies of the spelled bytes are as few as fill whole elements. -/
theorem length_decode : bytes.length = Nat.lcm elementSize (Text.width text / 2) := by
  obtain ⟨spelled, hs, rfl⟩ := decode_some_eq_ok_iff.1 h
  have pairs : Text.width text / 2 = spelled.length := by
    rw [Text.width, length_of_decodePairs hs]
    omega
  rw [pairs, length_replicate_flatten, length_of_decodePairs hs, copies_natCast]
  generalize spelled.length = n
  have common : Nat.gcd elementSize n = Nat.gcd (n % 4) 4 := Nat.gcd_rec 4 n
  rw [Nat.lcm_eq_mul_div, common, elementSize]
  -- The remainder of the number of pairs decides about both sides.
  obtain hr | hr | hr | hr : n % 4 = 0 ∨ n % 4 = 1 ∨ n % 4 = 2 ∨ n % 4 = 3 := by omega
  · rw [hr, if_pos (by omega), show Nat.gcd 0 4 = 4 from rfl]
    omega
  · rw [hr, if_neg (by omega), if_neg (by omega), show Nat.gcd 1 4 = 1 from rfl, Nat.div_one]
  · rw [hr, if_neg (by omega), if_pos (by omega), show Nat.gcd 2 4 = 2 from rfl]
    omega
  · rw [hr, if_neg (by omega), if_neg (by omega), show Nat.gcd 3 4 = 1 from rfl, Nat.div_one]

/-- Each byte of a decoded pattern is spelled by a pair of digits, counted over and over. -/
theorem getElem?_decode {k : Nat} (inside : k < bytes.length) :
    bytes[k]? = pairByte? (Text.units text) (k % (Text.width text / 2)) := by
  by_cases empty : text = ""
  · subst empty
    cases h
    simp at inside
  · obtain ⟨-, pairs⟩ := repeated_of_decode h empty
    rw [pairs k, repeated, Nat.mod_eq_of_lt inside, List.getD_eq_getElem?_getD,
      List.getElem?_eq_getElem inside, Option.getD_some]

end

end FillPattern

end BenchSettings
