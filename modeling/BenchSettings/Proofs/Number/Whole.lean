/-
BenchSettings.Proofs.Number.Whole — doubles that runs of digits denote.

A run of digits is read as a double, so a long one is rounded and a very long
one becomes infinite. What that can do to a whole number is little:
`ofDigits_cases` says that one below 2 ^ 53 is met exactly and that every
other is read as at least 2 ^ 53.

All that the library does with such a double is to clamp it to 32 bits and to
compare it with a 32-bit number, and neither can tell it from the exact
integer (`saturated_ofDigits`, `ofDigits_eq_integer_iff`).
-/
import BenchSettings.Setting.Reading

namespace BenchSettings.Number

/-! ## 1. The exponent of a whole number -/

theorem leadingExponent_one {n : Nat} (pos : n ≠ 0) : leadingExponent n 1 = Nat.log2 n := by
  have reached : 1 * 2 ^ Nat.log2 n ≤ n * 2 ^ 0 := by
    simpa using Nat.log2_self_le pos
  have guess : ((Nat.log2 n : Int) - Nat.log2 1) = Nat.log2 n := by
    rw [show Nat.log2 1 = 0 by decide]
    omega
  simp only [leadingExponent, guess]
  rw [if_pos]
  simpa using reached

theorem lastExponent_one {n : Nat} (pos : n ≠ 0) : lastExponent n 1 = (Nat.log2 n : Int) - 52 := by
  simp only [lastExponent, leadingExponent_one pos, precision, leastExponent]
  omega

/-! ## 2. Below 2 ^ 53 a whole number is met exactly -/

theorem reduce_mul_pow (n k : Nat) : reduce (n * 2 ^ k) k = (n, 0) := by
  induction k with
  | zero => simp [reduce]
  | succ k ih =>
    have halves : n * 2 ^ (k + 1) = 2 * (n * 2 ^ k) := by
      rw [Nat.pow_succ]
      ac_rfl
    rw [reduce, halves, if_pos (by omega), Nat.mul_div_cancel_left _ (by decide), ih]

/-- Shifting a whole number up and its exponent down by as much leaves it as it is. -/
theorem ofBits_shift (negative : Bool) (n k : Nat) :
    ofBits negative (n * 2 ^ k) (-(k : Int)) = .integer (Text.withSign negative n) := by
  cases k with
  | zero => simp [ofBits]
  | succ k =>
    show ofBits negative (n * 2 ^ (k + 1)) (Int.negSucc k) = _
    simp only [ofBits, reduce_mul_pow]

theorem nearest_of_lt (negative : Bool) {n : Nat} (pos : n ≠ 0) (small : n < 2 ^ precision) :
    nearest negative n 1 = .integer (Text.withSign negative n) := by
  have log : Nat.log2 n < 53 := (Nat.log2_lt pos).2 small
  have last : lastExponent n 1 = -((52 - Nat.log2 n : Nat) : Int) := by
    rw [lastExponent_one pos]
    omega
  have bits : n * 2 ^ (52 - Nat.log2 n) < overflow := by
    have top : n < 2 ^ (Nat.log2 n + 1) := Nat.lt_log2_self
    calc n * 2 ^ (52 - Nat.log2 n)
        < 2 ^ (Nat.log2 n + 1) * 2 ^ (52 - Nat.log2 n) :=
          Nat.mul_lt_mul_of_pos_right top (Nat.two_pow_pos _)
      _ = 2 ^ precision := by rw [← Nat.pow_add, precision]; congr 1; omega
      _ ≤ overflow := Nat.pow_le_pow_right (by decide) (by decide)
  simp only [nearest, pos, if_false, last, Int.neg_neg, Int.toNat_natCast,
    show (-((52 - Nat.log2 n : Nat) : Int)).toNat = 0 by omega, Nat.pow_zero, Nat.mul_one,
    roundQuotient_one, Nat.not_le.2 bits, ofBits_shift]

/-! ## 3. From 2 ^ 53 on it stays as great -/

theorem div_le_roundQuotient (num den : Nat) : num / den ≤ roundQuotient num den := by
  simp only [roundQuotient]
  split
  · exact Nat.le_refl _
  · split <;> omega

theorem nearest_of_le (negative : Bool) {n : Nat} (great : 2 ^ precision ≤ n) :
    nearest negative n 1 = .infinite negative ∨
      ∃ m : Nat, 2 ^ precision ≤ m ∧
        nearest negative n 1 = .integer (Text.withSign negative m) := by
  have pos : n ≠ 0 := by
    intro zero
    subst zero
    exact absurd great (by decide)
  have log : 53 ≤ Nat.log2 n := (Nat.le_log2 pos).2 great
  obtain ⟨k, hk⟩ : ∃ k, Nat.log2 n = 52 + k := ⟨Nat.log2 n - 52, by omega⟩
  have last : lastExponent n 1 = (k : Int) := by
    rw [lastExponent_one pos, hk]
    omega
  -- The significand keeps its leading bit, so shifting it back reaches the power of two below.
  have significand : 2 ^ (precision - 1) ≤ roundQuotient n (2 ^ k) := by
    refine Nat.le_trans ?_ (div_le_roundQuotient n (2 ^ k))
    rw [Nat.le_div_iff_mul_le (Nat.two_pow_pos k), ← Nat.pow_add, precision, ← hk]
    exact Nat.log2_self_le pos
  have reached : 2 ^ precision ≤ roundQuotient n (2 ^ k) * 2 ^ k :=
    calc 2 ^ precision ≤ 2 ^ (precision - 1 + k) :=
          Nat.pow_le_pow_right (by decide) (by rw [precision]; omega)
      _ = 2 ^ (precision - 1) * 2 ^ k := Nat.pow_add ..
      _ ≤ roundQuotient n (2 ^ k) * 2 ^ k := Nat.mul_le_mul_right _ significand
  simp only [nearest, pos, if_false, last, Int.toNat_natCast,
    show (-(k : Int)).toNat = 0 by omega, Nat.pow_zero, Nat.mul_one, Nat.one_mul]
  split
  · exact .inl rfl
  · exact .inr ⟨_, reached, rfl⟩

/-! ## 4. Runs of digits -/

/-- A double that digits denote is their number if that is below 2 ^ 53, and is at least 2 ^ 53 or
infinite otherwise. -/
theorem ofDigits_cases (negative : Bool) (ds : List Char) :
    (Text.digitsValue ds < 2 ^ precision ∧
      ofDigits negative ds = .integer (Text.withSign negative (Text.digitsValue ds))) ∨
    (2 ^ precision ≤ Text.digitsValue ds ∧
      (ofDigits negative ds = .infinite negative ∨
        ∃ m : Nat, 2 ^ precision ≤ m ∧
          ofDigits negative ds = .integer (Text.withSign negative m))) := by
  simp only [ofDigits, ofDecimal]
  generalize Text.digitsValue ds = n
  by_cases zero : n = 0
  · subst zero
    exact .inl ⟨by decide, by cases negative <;> rfl⟩
  · simp only [zero, if_false, Int.add_zero]
    split
    · -- More than 310 digits: the number is infinite without being looked at.
      rename_i long
      have digits : ¬(Text.decimalDigits n).length ≤ precision := by
        simp only [greatestPosition, precision] at *
        omega
      have great : 10 ^ precision ≤ n := Nat.not_lt.1 fun small =>
        digits ((Nat.length_toDigits_le_iff (by decide) (by decide)).2 small)
      exact .inr ⟨Nat.le_trans (Nat.pow_le_pow_left (by decide) precision) great, .inl rfl⟩
    · have first : ¬((Text.decimalDigits n).length : Int) < leastPosition := by
        simp only [leastPosition]
        omega
      simp only [first, if_false, Int.toNat_zero, Int.neg_zero, Nat.pow_zero, Nat.mul_one]
      by_cases small : n < 2 ^ precision
      · exact .inl ⟨small, nearest_of_lt negative zero small⟩
      · exact .inr ⟨Nat.not_lt.1 small, nearest_of_le negative (Nat.not_lt.1 small)⟩

/-- Clamping cannot tell the double from the exact number of its digits. -/
theorem saturated_ofDigits (negative : Bool) (ds : List Char) :
    (ofDigits negative ds).saturated =
      saturate (Text.withSign negative (Text.digitsValue ds)) := by
  have wide : 2 ^ precision = 9007199254740992 := rfl
  obtain ⟨_, exact⟩ | ⟨great, infinite | ⟨m, hm, rounded⟩⟩ := ofDigits_cases negative ds
  · rw [exact]
    rfl
  · rw [infinite]
    cases negative <;>
      simp only [saturated, saturate, Text.withSign, minWhole, maxWhole, if_true,
        Bool.false_eq_true, if_false] <;>
      omega
  · rw [rounded]
    cases negative <;>
      simp only [saturated, truncate?, Option.getD_some, saturate, Text.withSign, minWhole,
        maxWhole, if_true, Bool.false_eq_true, if_false] <;>
      omega

/-- Nor can comparing it with a number that fits. -/
theorem ofDigits_eq_integer_iff (negative : Bool) (ds : List Char) {value : Int}
    (lo : minWhole ≤ value) (hi : value ≤ maxWhole) :
    ofDigits negative ds = .integer value ↔
      Text.withSign negative (Text.digitsValue ds) = value := by
  simp only [minWhole, maxWhole] at lo hi
  have wide : 2 ^ precision = 9007199254740992 := rfl
  obtain ⟨_, exact⟩ | ⟨great, infinite | ⟨m, hm, rounded⟩⟩ := ofDigits_cases negative ds
  · rw [exact, integer.injEq]
  · rw [infinite]
    cases negative <;>
      simp only [Text.withSign, reduceCtorEq, false_iff, if_true, Bool.false_eq_true, if_false] <;>
      omega
  · rw [rounded, integer.injEq]
    cases negative <;>
      simp only [Text.withSign, if_true, Bool.false_eq_true, if_false] <;>
      omega

end BenchSettings.Number
