/-
BenchSettings.Proofs.Setting.NumberText — numbers that pass through their text.

A number that sets a variable is written down, and the text is read leniently,
up to the first character that is no digit. Most numbers survive that: what is
read is the integer part, clamped to the range. But a number that is written
with an exponent comes back as the single digit in front of it, and an infinite
number, whose text is a word, as 0.

`readBack_of_held` says which numbers survive: exactly those that are written out,
zero and the numbers from a millionth on that are below 10 ^ 21. All others come
back as some number of one digit, and never as the right one.
-/
import BenchSettings.Proofs.Number.Shown
import BenchSettings.Proofs.Setting.Reading

namespace BenchSettings

/-! ## 1. Signs -/

/-- Cutting off toward zero is dividing what stands behind the sign. -/
theorem withSign_tdiv (n : Int) (den : Nat) :
    Text.withSign (decide (n < 0)) (n.natAbs / den) = n.tdiv den := by
  cases n with
  | ofNat k => simp [Text.withSign]
  | negSucc k =>
    have quotient : (Int.negSucc k).tdiv den = -((k + 1 : Nat) / den : Nat) := by
      rw [Int.negSucc_eq, Int.neg_tdiv]
      rfl
    rw [decide_eq_true (Int.negSucc_lt_zero k), quotient, Int.natAbs_negSucc]
    rfl

/-- A number behind its sign is read up to the end of its digits. -/
theorem lenient_signed (n : Int) {cs : List Char}
    (head : ∃ c rest, cs = c :: rest ∧ c.isDigit = true) :
    lenient (String.ofList ((if n < 0 then ['-'] else []) ++ cs)) =
      saturate (Text.withSign (decide (n < 0)) (Text.front cs)) := by
  obtain ⟨c, rest, rfl, digit⟩ := head
  rw [lenient_eq, String.toList_ofList]
  split
  · rename_i negative
    rw [decide_eq_true negative]
    rfl
  · rename_i positive
    have solid : ∀ d ∈ (c :: rest).head?, Text.isSpace d = false := by
      simpa using Text.isSpace_of_isDigit digit
    rw [decide_eq_false positive, List.nil_append, Text.dropWhile_of_head? solid,
      Text.splitSign_of_digit digit]
    rfl

/-- A digit is not the whole number that it should be, if that is zero or has more digits. -/
theorem saturate_withSign_of_digit (negative : Bool) {digit n : Nat}
    (bounds : 1 ≤ digit ∧ digit ≤ 9) (other : n = 0 ∨ 10 ≤ n) :
    saturate (Text.withSign negative digit) ≠ saturate (Text.withSign negative n) ∧
      (saturate (Text.withSign negative digit)).natAbs ≤ 9 := by
  cases negative <;>
    simp only [saturate, minWhole, maxWhole, Text.withSign, if_true, Bool.false_eq_true,
      if_false] <;>
    omega

namespace Number

/-! ## 2. Digits that are read back -/

section

variable {n : Int} {den : Nat} (pos : 0 < den) (nonzero : n ≠ 0)
  (double : IsDouble ((n.natAbs : ℚ) / den))

include pos nonzero double

theorem lenient_positiveText :
    lenient (String.ofList ((if n < 0 then ['-'] else []) ++ positiveText n.natAbs den)) =
      saturate (Text.withSign (decide (n < 0)) (Text.front (positiveText n.natAbs den))) :=
  lenient_signed n (positiveText_head pos (Int.natAbs_ne_zero.2 nonzero) double)

/-- Digits that are written out are read up to the point. That is the integer part of a number with
a fraction, and of a great number something beyond the range, as the number itself is. -/
theorem lenient_writtenOut
    (parted : (∀ k : Nat, (n.natAbs : ℚ) / den ≠ k) ∨ 2 ^ precision < (n.natAbs : ℚ) / den)
    (least : leastWrittenOut < (n.natAbs : ℚ) / den) (most : (n.natAbs : ℚ) / den < 10 ^ 21) :
    lenient (String.ofList ((if n < 0 then ['-'] else []) ++ positiveText n.natAbs den)) =
      saturate (n.tdiv den) := by
  have nonzero' := Int.natAbs_ne_zero.2 nonzero
  rw [lenient_positiveText pos nonzero double, front_positiveText pos nonzero' double least most,
    ← withSign_tdiv]
  rcases parted with fraction | great
  · rw [floor_shown pos nonzero' double fraction]
  · refine saturate_withSign_of_great _ (le_floor_shown pos nonzero' double great) ?_
    rw [← Nat.floor_div_eq_div (K := ℚ)]
    refine Nat.le_floor (le_trans ?_ great.le)
    norm_num [precision]

/-- Of digits with an exponent one is read, and nothing is left of the number. -/
theorem lenient_of_exponent
    (out : (n.natAbs : ℚ) / den < leastWrittenOut ∨ 10 ^ 21 < (n.natAbs : ℚ) / den) :
    let text := String.ofList ((if n < 0 then ['-'] else []) ++ positiveText n.natAbs den)
    lenient text ≠ saturate (n.tdiv den) ∧ (lenient text).natAbs ≤ 9 := by
  have nonzero' := Int.natAbs_ne_zero.2 nonzero
  have digit := front_positiveText_of_exponent pos nonzero' double out
  simp only [lenient_positiveText pos nonzero double, ← withSign_tdiv]
  refine saturate_withSign_of_digit _ digit ?_
  rw [← Nat.floor_div_eq_div (K := ℚ)]
  rcases out with small | great
  · refine .inl (Nat.floor_eq_zero.2 (small.trans ?_))
    norm_num [leastWrittenOut]
  · refine .inr (Nat.le_floor (le_trans ?_ great.le))
    norm_num

end

/-! ## 3. Which numbers survive -/

/-- The numbers that are written without an exponent. -/
def WrittenOut (x : Number) : Prop :=
  ∃ q, x.value? = some q ∧ (q = 0 ∨ leastWrittenOut ≤ |q| ∧ |q| < 10 ^ 21)

theorem abs_cast (n : Int) : |(n : ℚ)| = n.natAbs := by
  rw [Nat.cast_natAbs, Int.cast_abs]

theorem abs_fraction (n : Int) (k : Nat) : |(n : ℚ) / 2 ^ k| = n.natAbs / (2 ^ k : Nat) := by
  rw [abs_div, abs_cast, abs_of_pos (by positivity)]
  norm_cast

theorem writtenOut_integer_iff {n : Int} : WrittenOut (.integer n) ↔ n.natAbs < 10 ^ 21 := by
  constructor
  · rintro ⟨q, value, written⟩
    cases value
    rw [abs_cast, Int.cast_eq_zero] at written
    rcases written with rfl | ⟨-, most⟩
    · decide
    · exact_mod_cast most
  · intro few
    refine ⟨n, rfl, ?_⟩
    rw [abs_cast, Int.cast_eq_zero]
    rcases eq_or_ne n 0 with zero | nonzero
    · exact .inl zero
    · have one : (1 : ℚ) ≤ n.natAbs :=
        Nat.one_le_cast.2 (Nat.pos_of_ne_zero (Int.natAbs_ne_zero.2 nonzero))
      refine .inr ⟨le_trans ?_ one, by exact_mod_cast few⟩
      norm_num [leastWrittenOut]

theorem writtenOut_fraction_iff {n : Int} (nonzero : n ≠ 0) (k : Nat) :
    WrittenOut (.fraction n k) ↔ leastWrittenOut ≤ (n.natAbs : ℚ) / (2 ^ k : Nat) ∧
      (n.natAbs : ℚ) / (2 ^ k : Nat) < 10 ^ 21 := by
  have nonzero' : (n : ℚ) / 2 ^ k ≠ 0 := div_ne_zero (Int.cast_ne_zero.2 nonzero) (by positivity)
  simp [WrittenOut, value?, nonzero', abs_fraction]

/-- A number with an odd numerator is no whole number. -/
theorem fraction_ne_natCast {n : Int} (odd : n % 2 = 1) (k m : Nat) :
    (n.natAbs : ℚ) / (2 ^ (k + 1) : Nat) ≠ m := by
  rw [ne_eq, div_eq_iff (by positivity)]
  norm_cast
  rw [Nat.pow_succ, ← Nat.mul_assoc]
  omega

/-- An odd number takes the fewest halvings. -/
theorem le_of_odd {a b i j : Nat} (odd : b % 2 = 1) (same : a * 2 ^ i = b * 2 ^ j) : i ≤ j := by
  refine Nat.not_lt.1 fun more => ?_
  obtain ⟨d, rfl⟩ := Nat.exists_eq_add_of_lt more
  have half : a * 2 ^ d * 2 = b := by
    refine Nat.eq_of_mul_eq_mul_right (Nat.two_pow_pos j) ?_
    rw [← same, Nat.pow_succ, Nat.pow_add]
    ring
  omega

theorem eq_of_odd {a b i j : Nat} (left : a % 2 = 1) (right : b % 2 = 1)
    (same : a * 2 ^ i = b * 2 ^ j) : a = b ∧ i = j := by
  obtain rfl := Nat.le_antisymm (le_of_odd right same) (le_of_odd left same.symm)
  exact ⟨Nat.eq_of_mul_eq_mul_right (Nat.two_pow_pos i) same, rfl⟩

/-- A number comes back from its text, cut off and clamped, exactly if it is written out. Of any
other number there comes back a number of one digit. -/
structure ReadBack (x : Number) : Prop where
  kept : x.WrittenOut → lenient x.text = x.saturated
  lost : ¬x.WrittenOut → lenient x.text ≠ x.saturated ∧ (lenient x.text).natAbs ≤ 9

theorem ReadBack.of_writtenOut {x : Number} (written : x.WrittenOut)
    (kept : lenient x.text = x.saturated) : ReadBack x :=
  ⟨fun _ => kept, fun exponent => absurd written exponent⟩

theorem ReadBack.of_exponent {x : Number} (exponent : ¬x.WrittenOut)
    (lost : lenient x.text ≠ x.saturated ∧ (lenient x.text).natAbs ≤ 9) : ReadBack x :=
  ⟨fun written => absurd written exponent, fun _ => lost⟩

/-- The least whole number with an exponent. It lies on the bound, where the bits of a double do not
say on which side its digits are. -/
theorem lost_of_natAbs_eq {n : Int} (same : n.natAbs = 10 ^ 21) :
    lenient (Number.integer n).text ≠ (Number.integer n).saturated ∧
      (lenient (Number.integer n).text).natAbs ≤ 9 := by
  rcases Int.natAbs_eq n with plus | minus
  · rw [plus, same]
    decide +kernel
  · rw [minus, same]
    decide +kernel

/-- The least number that is written out lies on the other bound. -/
theorem kept_of_abs_eq {n : Int} {k : Nat} (odd : n % 2 = 1)
    (same : (n.natAbs : ℚ) / (2 ^ k : Nat) = leastWrittenOut) :
    lenient (Number.fraction n k).text = (Number.fraction n k).saturated := by
  rw [leastWrittenOut, div_eq_div_iff (by positivity) (by positivity)] at same
  obtain ⟨numerator, rfl⟩ : n.natAbs = 4722366482869645 ∧ 72 = k :=
    eq_of_odd (by omega) (by decide) (by exact_mod_cast same)
  rcases Int.natAbs_eq n with plus | minus
  · rw [plus, numerator]
    decide +kernel
  · rw [minus, numerator]
    decide +kernel

theorem readBack_integer {n : Int} (double : IsDouble |(n : ℚ)|) : ReadBack (.integer n) := by
  rcases Nat.lt_or_ge allDigitsBelow n.natAbs with great | few
  · have one : (n.natAbs : ℚ) = n.natAbs / (1 : Nat) := by simp
    have nonzero : n ≠ 0 := by
      rintro rfl
      cases great
    have great' : 2 ^ precision < (n.natAbs : ℚ) / (1 : Nat) := by
      rw [← one]
      exact_mod_cast great
    have digits : (Number.integer n).text =
        String.ofList ((if n < 0 then ['-'] else []) ++ positiveText n.natAbs 1) :=
      if_neg (Nat.not_le.2 great)
    have saturated : (Number.integer n).saturated = saturate (n.tdiv (1 : Nat)) := by
      rw [Nat.cast_one, Int.tdiv_one]
      rfl
    rw [abs_cast, one] at double
    rcases Nat.lt_trichotomy n.natAbs (10 ^ 21) with less | same | more
    · refine .of_writtenOut (writtenOut_integer_iff.2 less) ?_
      rw [digits, saturated]
      refine lenient_writtenOut Nat.one_pos nonzero double (.inr great') ?_ ?_
      · refine lt_of_lt_of_le ?_ great'.le
        norm_num [leastWrittenOut, precision]
      · rw [← one]
        exact_mod_cast less
    · refine .of_exponent (fun written => ?_) (lost_of_natAbs_eq same)
      exact absurd same (writtenOut_integer_iff.1 written).ne
    · refine .of_exponent (fun written => ?_) ?_
      · exact absurd (writtenOut_integer_iff.1 written) more.not_gt
      · rw [digits, saturated]
        refine lenient_of_exponent Nat.one_pos nonzero double (.inr ?_)
        rw [← one]
        exact_mod_cast more
  · refine .of_writtenOut (writtenOut_integer_iff.2 (lt_of_le_of_lt few (by decide))) ?_
    simp only [text, if_pos few, lenient_decimal_eq]
    rfl

theorem readBack_fraction {n : Int} {k : Nat} (odd : n % 2 = 1)
    (double : IsDouble |(n : ℚ) / 2 ^ (k + 1)|) : ReadBack (.fraction n (k + 1)) := by
  have nonzero : n ≠ 0 := by omega
  have parted := fraction_ne_natCast odd k
  have written := writtenOut_fraction_iff nonzero (k + 1)
  have saturated : (Number.fraction n (k + 1)).saturated =
      saturate (n.tdiv (2 ^ (k + 1) : Nat)) := by
    push_cast
    rfl
  rw [abs_fraction] at double
  rcases lt_trichotomy ((n.natAbs : ℚ) / (2 ^ (k + 1) : Nat)) leastWrittenOut with
    less | same | more
  · refine .of_exponent (fun out => absurd (written.1 out).1 less.not_ge) ?_
    rw [saturated]
    exact lenient_of_exponent (Nat.two_pow_pos _) nonzero double (.inl less)
  · refine .of_writtenOut (written.2 ⟨same.ge, ?_⟩) (kept_of_abs_eq odd same)
    rw [same]
    norm_num [leastWrittenOut]
  · rcases lt_or_gt_of_ne (show (n.natAbs : ℚ) / (2 ^ (k + 1) : Nat) ≠ 10 ^ 21 by
      exact_mod_cast parted (10 ^ 21)) with below | above
    · refine .of_writtenOut (written.2 ⟨more.le, below⟩) ?_
      rw [saturated]
      exact lenient_writtenOut (Nat.two_pow_pos _) nonzero double (.inl parted) more below
    · refine .of_exponent (fun out => absurd (written.1 out).2 above.not_gt) ?_
      rw [saturated]
      exact lenient_of_exponent (Nat.two_pow_pos _) nonzero double (.inr above)

theorem readBack_of_held {x : Number} (held : Held x) : ReadBack x := by
  cases held with
  | integer double => exact readBack_integer double
  | fraction odd double => exact readBack_fraction odd double
  | infinite negative =>
    refine .of_exponent ?_ ?_
    · rintro ⟨q, value, -⟩
      cases value
    · cases negative <;> decide +kernel

/-! ## 4. Order -/

/-- The integer part of a quantity, the fraction cut off toward zero. -/
def towardZero (q : ℚ) : Int := if 0 ≤ q then ⌊q⌋ else ⌈q⌉

theorem towardZero_mono {p q : ℚ} (le : p ≤ q) : towardZero p ≤ towardZero q := by
  simp only [towardZero]
  split
  · rename_i nonneg
    rw [if_pos (nonneg.trans le)]
    exact Int.floor_le_floor le
  · rename_i negative
    split
    · rename_i nonneg
      exact (Int.ceil_le.2 (by simpa using (not_le.1 negative).le)).trans (Int.floor_nonneg.2 nonneg)
    · exact Int.ceil_le_ceil le

theorem truncate?_eq (x : Number) : x.truncate? = x.value?.map towardZero := by
  cases x with
  | integer n => simp [truncate?, value?, towardZero]
  | fraction n k =>
    have power : ((2 : ℚ) ^ k) = ((2 ^ k : Nat) : ℚ) := by norm_num
    have sign : 0 ≤ (n : ℚ) / (2 ^ k : Nat) ↔ 0 ≤ n := by
      rw [le_div_iff₀ (by positivity), zero_mul, Int.cast_nonneg_iff]
    simp only [truncate?, value?, Option.map_some, towardZero, power, sign]
    split
    · rename_i nonneg
      rw [Rat.floor_intCast_div_natCast, Int.tdiv_eq_ediv_of_nonneg nonneg]
      norm_cast
    · rename_i negative
      obtain ⟨m, rfl⟩ : ∃ m, n = -m := ⟨-n, (Int.neg_neg n).symm⟩
      rw [Rat.ceil_intCast_div_natCast, Int.neg_neg, Int.neg_tdiv,
        Int.tdiv_eq_ediv_of_nonneg (by omega)]
      norm_cast
  | infinite negative => rfl
  | nan => rfl

theorem saturate_mono {m n : Int} (le : m ≤ n) : saturate m ≤ saturate n := by
  simp only [saturate, minWhole, maxWhole]
  omega

theorem saturated_of_value {x : Number} {q : ℚ} (value : x.value? = some q) :
    x.saturated = saturate (towardZero q) := by
  have whole : x.truncate? = some (towardZero q) := by
    rw [truncate?_eq, value, Option.map_some]
  cases x with
  | integer n =>
    show saturate ((Number.integer n).truncate?.getD 0) = _
    rw [whole, Option.getD_some]
  | fraction n k =>
    show saturate ((Number.fraction n k).truncate?.getD 0) = _
    rw [whole, Option.getD_some]
  | infinite negative => cases value
  | nan => cases value

/-- Cutting off and clamping keep the order. -/
theorem saturated_le {x y : Number} {p q : ℚ} (left : x.value? = some p) (right : y.value? = some q)
    (le : p ≤ q) : x.saturated ≤ y.saturated := by
  rw [saturated_of_value left, saturated_of_value right]
  exact saturate_mono (towardZero_mono le)

end Number

end BenchSettings
