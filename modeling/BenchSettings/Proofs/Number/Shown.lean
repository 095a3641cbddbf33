/-
BenchSettings.Proofs.Number.Shown — what the digits of a double denote.

The digits of a double are not the double: they denote a quantity close to it,
`shown`. Between the two there is never a point of the double's own grid, the
multiples of its last bit (`le_shown`, `shown_le`). Two things follow. The
integer part of a double with a fraction can be read off its digits
(`floor_shown`). And the digits lie on the same side of another double as the
double itself (`shown_lt_of_lt`, `le_shown_of_lt`), so that the double alone
tells whether its digits are written out (`front_positiveText`) or not
(`front_positiveText_of_exponent`).
-/
import BenchSettings.Proofs.Number.Doubles
import BenchSettings.Proofs.Number.Layout

namespace BenchSettings.Number

/-- The quantity that the digits of a quotient denote. -/
def shown (num den : Nat) : ℚ := (shortest num den).1 * 10 ^ (shortest num den).2

/-- The least double that is written without an exponent. Of all doubles it is the nearest to a
millionth. -/
def leastWrittenOut : ℚ := 4722366482869645 / 2 ^ 72

theorem leastWrittenOut_eq : leastWrittenOut = (4722366482869645 : Nat) * 2 ^ (-72 : Int) := by
  rw [leastWrittenOut]
  norm_num

theorem writtenOutBelow_eq : (10 : ℚ) ^ 21 = (7629394531250000 : Nat) * 2 ^ (17 : Int) := by
  norm_num

example : nearest false 1 (10 ^ 6) = .fraction 4722366482869645 72 := by decide +kernel

section

variable {num den : Nat} (pos : 0 < den) (nonzero : num ≠ 0) (double : IsDouble ((num : ℚ) / den))

include pos nonzero double

/-! ## 1. Points of the double's own grid -/

/-- A double is a multiple of its last bit. -/
theorem exists_bits : ∃ significand : Nat,
    (num : ℚ) / den = significand * 2 ^ lastExponent num den :=
  ⟨_, (Span.value_of_isDouble pos nonzero double).symm⟩

theorem le_shown {point : Int} (above : (point : ℚ) * 2 ^ lastExponent num den < (num : ℚ) / den) :
    (point + 1 / 2 : ℚ) * 2 ^ lastExponent num den ≤ shown num den := by
  have near := shortest_near_of_isDouble pos nonzero double
  obtain ⟨significand, bits⟩ := exists_bits pos nonzero double
  have unit : (0 : ℚ) < 2 ^ lastExponent num den := by positivity
  rw [bits] at above near
  have next : (point : ℚ) + 1 ≤ significand := by
    exact_mod_cast lt_of_mul_lt_mul_right above unit.le
  have lower := (abs_le.1 near).1
  rw [shown]
  nlinarith

theorem shown_le {point : Int} (below : (num : ℚ) / den < point * 2 ^ lastExponent num den) :
    shown num den ≤ (point - 1 / 2 : ℚ) * 2 ^ lastExponent num den := by
  have near := shortest_near_of_isDouble pos nonzero double
  obtain ⟨significand, bits⟩ := exists_bits pos nonzero double
  have unit : (0 : ℚ) < 2 ^ lastExponent num den := by positivity
  rw [bits] at below near
  have next : (significand : ℚ) + 1 ≤ point := by
    exact_mod_cast lt_of_mul_lt_mul_right below unit.le
  have upper := (abs_le.1 near).2
  rw [shown]
  nlinarith

theorem shown_pos : 0 < shown num den := by
  have above : ((0 : Int) : ℚ) * 2 ^ lastExponent num den < (num : ℚ) / den := by
    simpa using quotient_pos pos nonzero
  refine lt_of_lt_of_le ?_ (le_shown pos nonzero double above)
  rw [Int.cast_zero, zero_add]
  positivity

theorem shortest_ne_zero : (shortest num den).1 ≠ 0 := by
  intro zero
  have positive := shown_pos pos nonzero double
  rw [shown, zero, Nat.cast_zero, zero_mul] at positive
  exact positive.false

/-! ## 2. The integer part -/

/-- The digits of a double that is no whole number have its integer part. -/
theorem floor_shown (fraction : ∀ n : Nat, (num : ℚ) / den ≠ n) :
    ⌊shown num den⌋₊ = num / den := by
  obtain ⟨significand, bits⟩ := exists_bits pos nonzero double
  obtain ⟨k, last⟩ : ∃ k : Nat, lastExponent num den = -(k : Int) := by
    rcases Int.le_total 0 (lastExponent num den) with up | down
    · obtain ⟨k, hk⟩ := Int.eq_ofNat_of_zero_le up
      rw [hk, zpow_natCast] at bits
      exact absurd (by exact_mod_cast bits) (fraction (significand * 2 ^ k))
    · exact ⟨(-lastExponent num den).toNat, by omega⟩
  have onGrid (n : Nat) : (((n * 2 ^ k : Nat) : Int) : ℚ) * 2 ^ lastExponent num den = n := by
    rw [last, zpow_neg, zpow_natCast]
    push_cast
    rw [mul_inv_cancel_right₀ (by positivity)]
  have unit : (0 : ℚ) < 2 ^ lastExponent num den := by positivity
  rw [← Nat.floor_div_eq_div (K := ℚ)]
  refine eq_of_forall_le_iff fun n => ?_
  rw [Nat.le_floor_iff (shown_pos pos nonzero double).le, Nat.le_floor_iff (by positivity)]
  rcases lt_or_gt_of_ne (fraction n) with below | above
  · have upper := shown_le pos nonzero double ((onGrid n).symm ▸ below)
    rw [sub_mul, onGrid] at upper
    constructor <;> intro <;> linarith
  · have lower := le_shown pos nonzero double ((onGrid n).symm ▸ above)
    rw [add_mul, onGrid] at lower
    constructor <;> intro <;> linarith

/-! ## 3. Other doubles -/

theorem shown_lt_of_lt {significand : Nat} {exponent : Int} (bits : significand < 2 ^ precision)
    (least : leastExponent ≤ exponent) (below : (num : ℚ) / den < significand * 2 ^ exponent) :
    shown num den < significand * 2 ^ exponent := by
  obtain ⟨k, shift⟩ := Int.eq_ofNat_of_zero_le
    (Int.sub_nonneg.2 (lastExponent_le pos nonzero bits least below.le))
  have onGrid : (((significand * 2 ^ k : Nat) : Int) : ℚ) * 2 ^ lastExponent num den =
      significand * 2 ^ exponent := by
    rw [show exponent = k + lastExponent num den by omega, zpow_add₀ (by norm_num), zpow_natCast]
    push_cast
    ring
  have unit : (0 : ℚ) < 2 ^ lastExponent num den := by positivity
  have upper := shown_le pos nonzero double (onGrid.symm ▸ below)
  rw [sub_mul, onGrid] at upper
  linarith

/-- A double whose last bit is not the least of all has so many bits that half of the last does not
matter. -/
theorem le_shown_of_normal (normal : leastExponent < lastExponent num den) :
    (2 ^ 52 - 1 / 2 : ℚ) * 2 ^ lastExponent num den ≤ shown num den := by
  have last : leadingExponent num den = 52 + lastExponent num den := by
    simp only [lastExponent, precision] at *
    omega
  have reached := leadingExponent_le pos nonzero
  rw [last, zpow_add₀ (by norm_num)] at reached
  have below : ((2 ^ 52 - 1 : Int) : ℚ) * 2 ^ lastExponent num den < (num : ℚ) / den := by
    refine lt_of_lt_of_le ?_ reached
    gcongr
    norm_num
  refine le_trans (le_of_eq ?_) (le_shown pos nonzero double below)
  push_cast
  ring

theorem le_shown_of_lt {significand : Nat} {exponent : Int}
    (normal : 2 ^ (precision - 1) ≤ significand) (bits : significand + 1 < 2 ^ precision)
    (least : leastExponent ≤ exponent)
    (above : (significand : ℚ) * 2 ^ exponent < (num : ℚ) / den) :
    (significand + 1 / 2 : ℚ) * 2 ^ exponent ≤ shown num den := by
  rcases Int.lt_or_eq_of_le (le_lastExponent pos normal above) with coarser | same
  · have bits' : (significand : ℚ) + 2 ≤ 2 ^ precision := by exact_mod_cast bits
    rw [precision] at bits'
    have twice : (2 : ℚ) * 2 ^ exponent ≤ 2 ^ lastExponent num den := by
      rw [← zpow_one_add₀ (by norm_num)]
      exact zpow_le_zpow_right₀ (by norm_num) (by omega)
    calc (significand + 1 / 2 : ℚ) * 2 ^ exponent
        ≤ (2 ^ 52 - 1 / 2) * (2 * 2 ^ exponent) := by
          rw [← mul_assoc]
          gcongr
          linarith
      _ ≤ (2 ^ 52 - 1 / 2) * 2 ^ lastExponent num den := by gcongr
      _ ≤ shown num den := le_shown_of_normal pos nonzero double (lt_of_le_of_lt least coarser)
  · subst same
    exact le_shown pos nonzero double (by exact_mod_cast above)

/-- The digits of a double denote a millionth or more if it is above the one nearest to that, and
less than a millionth if it is below. -/
theorem shown_of_lt_leastWrittenOut (below : (num : ℚ) / den < leastWrittenOut) :
    shown num den < 1 / 10 ^ 6 := by
  rw [leastWrittenOut_eq] at below
  refine (shown_lt_of_lt pos nonzero double (by decide) (by decide) below).trans ?_
  norm_num

theorem shown_of_leastWrittenOut_lt (above : leastWrittenOut < (num : ℚ) / den) :
    1 / 10 ^ 6 ≤ shown num den := by
  rw [leastWrittenOut_eq] at above
  refine le_trans ?_ (le_shown_of_lt pos nonzero double (by decide) (by decide) (by decide) above)
  norm_num

theorem shown_of_lt_writtenOutBelow (below : (num : ℚ) / den < 10 ^ 21) :
    shown num den < 10 ^ 21 := by
  rw [writtenOutBelow_eq] at *
  exact shown_lt_of_lt pos nonzero double (by decide) (by decide) below

theorem shown_of_writtenOutBelow_lt (above : 10 ^ 21 < (num : ℚ) / den) :
    10 ^ 21 ≤ shown num den := by
  rw [writtenOutBelow_eq] at above
  refine le_trans ?_ (le_shown_of_lt pos nonzero double (by decide) (by decide) (by decide) above)
  norm_num

/-! ## 4. What stands in front of the text -/

/-- In between, digits are written out. -/
theorem front_positiveText (least : leastWrittenOut < (num : ℚ) / den)
    (most : (num : ℚ) / den < 10 ^ 21) :
    Text.front (positiveText num den) = ⌊shown num den⌋₊ := by
  have digits := shortest_ne_zero pos nonzero double
  refine front_layout digits ?_ ?_
  · refine Int.not_le.1 fun small => ?_
    have less := (cast_lt_zpow_iff digits (shortest num den).2 (-6)).2 small
    have reached := shown_of_leastWrittenOut_lt pos nonzero double least
    rw [← shown] at less
    norm_num at *
    linarith
  · refine (cast_lt_zpow_iff digits (shortest num den).2 21).1 ?_
    exact_mod_cast shown_of_lt_writtenOutBelow pos nonzero double most

/-- Elsewhere they are written with an exponent. -/
theorem front_positiveText_of_exponent
    (out : (num : ℚ) / den < leastWrittenOut ∨ 10 ^ 21 < (num : ℚ) / den) :
    1 ≤ Text.front (positiveText num den) ∧ Text.front (positiveText num den) ≤ 9 := by
  have digits := shortest_ne_zero pos nonzero double
  refine front_layout_of_exponent digits fun inside => ?_
  rcases out with small | great
  · refine Int.not_le.2 inside.1 ((cast_lt_zpow_iff digits (shortest num den).2 (-6)).1 ?_)
    have less := shown_of_lt_leastWrittenOut pos nonzero double small
    rw [← shown]
    norm_num at *
    linarith
  · have less := (cast_lt_zpow_iff digits (shortest num den).2 21).2 inside.2
    have reached := shown_of_writtenOutBelow_lt pos nonzero double great
    rw [← shown] at less
    norm_num at *
    linarith

theorem positiveText_head : ∃ c rest, positiveText num den = c :: rest ∧ c.isDigit = true :=
  layout_head (shortest_ne_zero pos nonzero double) _

/-- The digits of a number that is beyond the range and more are beyond the range as well. -/
theorem le_floor_shown (great : 2 ^ precision < (num : ℚ) / den) : 2 ^ 31 ≤ ⌊shown num den⌋₊ := by
  have power : ((2 ^ 52 : Nat) : ℚ) * 2 ^ (1 : Int) = 2 ^ precision := by
    norm_num [precision]
  rw [← power] at great
  refine Nat.le_floor (le_trans ?_
    (le_shown_of_lt pos nonzero double (by decide) (by decide) (by decide) great))
  norm_num

end

end BenchSettings.Number
