/-
BenchSettings.Proofs.Number.Doubles — which numbers literals denote.

A double is a significand of 53 bits times a power of two, with a least power
(`IsDouble`). Of the numbers that this library can write down, `Held` are the
ones that a double can hold in the form in which they are kept: whole ones as
integers and no others. Every literal denotes such a number (`held_ofDecimal`).

What makes them special here is that nothing is lost when a double is cut off
to whole bits (`Span.value_of_isDouble`). So the digits that are found for it
miss the double itself by at most half of its last bit
(`shortest_near_of_isDouble`).
-/
import BenchSettings.Proofs.Number.Interval

namespace BenchSettings.Number

/-! ## 1. Doubles -/

/-- The finite doubles that are not negative. -/
def IsDouble (q : ℚ) : Prop :=
  ∃ (significand : Nat) (exponent : Int),
    significand < 2 ^ precision ∧ leastExponent ≤ exponent ∧ q = significand * 2 ^ exponent

/-- One more than the greatest significand is the least one, doubled so often. -/
theorem isDouble_of_le {significand : Nat} {exponent : Int} (bits : significand ≤ 2 ^ precision)
    (least : leastExponent ≤ exponent) : IsDouble (significand * 2 ^ exponent) := by
  rcases Nat.lt_or_eq_of_le bits with short | long
  · exact ⟨_, _, short, least, rfl⟩
  · refine ⟨2 ^ (precision - 1), exponent + 1, by decide, by omega, ?_⟩
    rw [long, zpow_add_one₀ (by norm_num), precision]
    push_cast
    ring

section

variable {num den : Nat} (pos : 0 < den) (nonzero : num ≠ 0)

include pos nonzero

theorem quotient_pos : 0 < (num : ℚ) / den :=
  div_pos (Nat.cast_pos.2 (Nat.pos_of_ne_zero nonzero)) (Nat.cast_pos.2 pos)

/-- The last bit of a quotient is no coarser than that of a double that is not below it. -/
theorem lastExponent_le {significand : Nat} {exponent : Int} (bits : significand < 2 ^ precision)
    (least : leastExponent ≤ exponent) (below : (num : ℚ) / den ≤ significand * 2 ^ exponent) :
    lastExponent num den ≤ exponent := by
  have leading : (2 : ℚ) ^ leadingExponent num den < 2 ^ ((precision : Int) + exponent) :=
    calc (2 : ℚ) ^ leadingExponent num den ≤ significand * 2 ^ exponent :=
          (leadingExponent_le pos nonzero).trans below
      _ < (2 ^ precision : Nat) * 2 ^ exponent := by gcongr
      _ = 2 ^ ((precision : Int) + exponent) := by
          rw [zpow_add₀ (by norm_num), zpow_natCast]
          norm_cast
  have order := (zpow_lt_zpow_iff_right₀ (by norm_num)).1 leading
  simp only [lastExponent, precision] at *
  omega

omit nonzero in
/-- It is no finer than that of a double with a leading bit that the quotient reaches. -/
theorem le_lastExponent {significand : Nat} {exponent : Int}
    (normal : 2 ^ (precision - 1) ≤ significand)
    (above : (significand : ℚ) * 2 ^ exponent < (num : ℚ) / den) :
    exponent ≤ lastExponent num den := by
  have leading : (2 : ℚ) ^ ((precision - 1 : Nat) + exponent) <
      2 ^ (leadingExponent num den + 1) :=
    calc (2 : ℚ) ^ ((precision - 1 : Nat) + exponent) =
          (2 ^ (precision - 1) : Nat) * 2 ^ exponent := by
          rw [zpow_add₀ (by norm_num), zpow_natCast]
          norm_cast
      _ ≤ significand * 2 ^ exponent := by gcongr
      _ < (num : ℚ) / den := above
      _ < 2 ^ (leadingExponent num den + 1) := lt_leadingExponent pos
  have order := (zpow_lt_zpow_iff_right₀ (by norm_num)).1 leading
  simp only [lastExponent, precision] at *
  omega

/-- A double is cut off to itself. -/
theorem Span.value_of_isDouble (double : IsDouble ((num : ℚ) / den)) :
    (Span.ofQuotient num den).value = (num : ℚ) / den := by
  obtain ⟨significand, exponent, bits, least, same⟩ := double
  obtain ⟨k, shift⟩ := Int.eq_ofNat_of_zero_le
    (Int.sub_nonneg.2 (lastExponent_le pos nonzero bits least same.le))
  have whole : (num : ℚ) / den =
      (significand * 2 ^ k : Nat) * (Span.ofQuotient num den).unit := by
    rw [same, Span.unit, show exponent = k + lastExponent num den by omega,
      zpow_add₀ (by norm_num), zpow_natCast]
    push_cast
    rw [mul_assoc]
    rfl
  obtain ⟨lower, upper⟩ : (Span.ofQuotient num den).value ≤ (num : ℚ) / den ∧ _ :=
    Span.value_ofQuotient pos
  rw [whole, Span.value] at *
  rw [← add_one_mul] at upper
  have unit := (Span.ofQuotient num den).unit_pos
  have lower' := Nat.cast_le.1 (le_of_mul_le_mul_right lower unit)
  have upper' : significand * 2 ^ k < (Span.ofQuotient num den).significand + 1 := by
    exact_mod_cast lt_of_mul_lt_mul_right upper unit.le
  rw [Nat.le_antisymm lower' (Nat.lt_succ_iff.1 upper')]

/-- No double is too small to have digits. -/
theorem le_mul_of_isDouble (double : IsDouble ((num : ℚ) / den)) :
    den ≤ num * 10 ^ enoughPlaces := by
  obtain ⟨significand, exponent, -, least, same⟩ := double
  have bits : (1 : ℚ) ≤ significand := by
    refine Nat.one_le_cast.2 (Nat.pos_of_ne_zero fun zero => ?_)
    rw [zero, Nat.cast_zero, zero_mul] at same
    exact (quotient_pos pos nonzero).ne' same
  have small : (1 : ℚ) ≤ significand * 2 ^ exponent * 10 ^ enoughPlaces :=
    calc (1 : ℚ) ≤ 1 * 2 ^ leastExponent * 10 ^ enoughPlaces := by
          rw [one_mul, leastExponent, zpow_neg, one_le_inv_mul₀ (by positivity)]
          exact_mod_cast (by decide +kernel : 2 ^ 1074 ≤ 10 ^ enoughPlaces)
      _ ≤ significand * 2 ^ exponent * 10 ^ enoughPlaces := by
          gcongr
          norm_num
  have den' : (0 : ℚ) < den := Nat.cast_pos.2 pos
  rw [← same, div_mul_eq_mul_div, one_le_div den'] at small
  exact_mod_cast small

/-- The digits that are found for a double miss it by half of its last bit at most. -/
theorem shortest_near_of_isDouble (double : IsDouble ((num : ℚ) / den)) :
    |((shortest num den).1 : ℚ) * 10 ^ (shortest num den).2 - (num : ℚ) / den| ≤
      2 ^ lastExponent num den / 2 := by
  have value := Span.value_of_isDouble pos nonzero double
  have bits : 0 < (Span.ofQuotient num den).significand := by
    rw [Nat.pos_iff_ne_zero]
    intro zero
    rw [Span.value, zero, Nat.cast_zero, zero_mul] at value
    exact (quotient_pos pos nonzero).ne value
  rw [← value]
  exact shortest_near pos (le_mul_of_isDouble pos nonzero double) bits

end

/-! ## 2. Numbers that are doubles -/

/-- What a number counts, the infinities and "not a number" aside. -/
def value? : Number → Option ℚ
  | .integer n => some n
  | .fraction n k => some (n / 2 ^ k)
  | .infinite _ | .nan => none

/-- The numbers that a double can hold, each in the form in which it is kept. -/
inductive Held : Number → Prop where
  | integer {n : Int} : IsDouble |(n : ℚ)| → Held (.integer n)
  | fraction {n : Int} {k : Nat} :
      n % 2 = 1 → IsDouble |(n : ℚ) / 2 ^ (k + 1)| → Held (.fraction n (k + 1))
  | infinite (negative : Bool) : Held (.infinite negative)

theorem isDouble_zero : IsDouble 0 := ⟨0, 0, by decide, by decide, by simp⟩

theorem abs_withSign (negative : Bool) (n : Nat) : |(Text.withSign negative n : ℚ)| = n := by
  cases negative <;> simp [Text.withSign]

/-- Reducing keeps the quotient and leaves an odd numerator over whatever halvings remain. -/
theorem reduce_cases (numerator k : Nat) :
    (∃ n : Nat, reduce numerator k = (n, 0) ∧ (n : ℚ) = numerator / 2 ^ k) ∨
    ∃ n j : Nat, reduce numerator k = (n, j + 1) ∧ n % 2 = 1 ∧
      (n : ℚ) / 2 ^ (j + 1) = numerator / 2 ^ k := by
  induction k generalizing numerator with
  | zero => exact .inl ⟨numerator, rfl, by simp⟩
  | succ k ih =>
    rw [reduce]
    split
    · rename_i even
      have half : (numerator : ℚ) / 2 ^ (k + 1) = (numerator / 2 : Nat) / 2 ^ k := by
        have whole : (numerator : ℚ) = 2 * (numerator / 2 : Nat) := by
          exact_mod_cast (by omega : numerator = 2 * (numerator / 2))
        rw [pow_succ, whole]
        field_simp
      rw [half]
      exact ih (numerator / 2)
    · rename_i odd
      exact .inr ⟨numerator, k, rfl, by omega, rfl⟩

theorem held_ofBits (negative : Bool) {significand : Nat} {exponent : Int}
    (bits : significand ≤ 2 ^ precision) (least : leastExponent ≤ exponent) :
    Held (ofBits negative significand exponent) := by
  have double := isDouble_of_le bits least
  unfold ofBits
  split
  · refine .integer ?_
    rw [abs_withSign]
    simpa using double
  · rename_i e
    have shift : (significand : ℚ) * 2 ^ Int.negSucc e = significand / 2 ^ (e + 1) := by
      rw [zpow_negSucc, div_eq_mul_inv]
    rw [shift] at double
    obtain ⟨n, whole, same⟩ | ⟨n, j, odd, parity, same⟩ := reduce_cases significand (e + 1)
    · simp only [whole]
      refine .integer ?_
      rwa [abs_withSign, same]
    · simp only [odd]
      refine .fraction ?_ ?_
      · cases negative <;> simp only [Text.withSign] <;> omega
      · rwa [abs_div, abs_withSign, abs_of_pos (by positivity), same]

theorem roundQuotient_le (num den : Nat) : roundQuotient num den ≤ num / den + 1 := by
  simp only [roundQuotient]
  split
  · exact Nat.le_succ _
  · split <;> omega

theorem held_nearest (negative : Bool) (num : Nat) {den : Nat} (pos : 0 < den) :
    Held (nearest negative num den) := by
  simp only [nearest]
  split
  · exact .integer (by simpa using isDouble_zero)
  split
  · exact .infinite negative
  · refine held_ofBits negative ?_ (Int.le_max_right _ _)
    exact (roundQuotient_le _ _).trans (significand_lt pos)

/-- Every literal denotes a number that a double can hold. -/
theorem held_ofDecimal (negative : Bool) (coefficient : Nat) (exponent : Int) :
    Held (ofDecimal negative coefficient exponent) := by
  simp only [ofDecimal]
  split
  · exact .integer (by simpa using isDouble_zero)
  split
  · exact .infinite negative
  split
  · exact .integer (by simpa using isDouble_zero)
  · exact held_nearest negative _ (Nat.pow_pos (by decide))

end BenchSettings.Number
