/-
BenchSettings.Proofs.Number.Layout — the digits in front of a written number.

Whoever reads a number leniently stops at the first character that is no
digit, so all that counts of a text is the run of digits in front, its `front`.
Written out, a number has its integer part there (`front_layout`). Written
with an exponent it has a single digit there, the first significant one, and
that says nothing about its size (`front_layout_of_exponent`).

Which of the two it is depends on the number alone: from a millionth on, up to
21 places before the point, numbers are written out.
-/
import BenchSettings.Proofs.Number.Interval
import BenchSettings.Text.Blank
import Mathlib.Algebra.Order.Floor.Semifield
import Mathlib.Data.List.TakeWhile
import Mathlib.Data.Rat.Floor

namespace BenchSettings

namespace Text

/-! ## 1. Runs of digits -/

theorem digitsValue_append (front back : List Char) :
    digitsValue (front ++ back) = digitsValue front * 10 ^ back.length + digitsValue back := by
  rw [digitsValue, Nat.ofDigitChars_append, Nat.ofDigitChars_eq_ofDigitChars_zero, Nat.mul_comm]
  rfl

theorem digitsValue_zeros (k : Nat) : digitsValue (List.replicate k '0') = 0 := by
  rw [digitsValue, Nat.ofDigitChars_replicate_zero, Nat.mul_zero]

theorem digitsValue_singleton (c : Char) : digitsValue [c] = c.toNat - 48 := by
  simp [digitsValue, Nat.ofDigitChars_cons]

theorem digitsValue_singleton_pos {c : Char} (digit : c.isDigit = true) (nonzero : c ≠ '0') :
    1 ≤ digitsValue [c] := by
  have least := (toNat_of_isDigit digit).1
  have other : c.toNat ≠ 48 := fun same => nonzero (Char.toNat_inj.1 same)
  rw [digitsValue_singleton]
  omega

theorem digitsValue_lt {ds : List Char} (digits : ∀ c ∈ ds, c.isDigit = true) :
    digitsValue ds < 10 ^ ds.length := by
  induction ds with
  | nil => decide
  | cons c rest ih =>
    obtain ⟨digit, digits'⟩ := List.forall_mem_cons.1 digits
    have first : digitsValue [c] < 10 := by
      have most := (toNat_of_isDigit digit).2
      rw [digitsValue_singleton]
      omega
    have below := ih digits'
    rw [← List.singleton_append, digitsValue_append, List.length_append, Nat.pow_add]
    calc digitsValue [c] * 10 ^ rest.length + digitsValue rest
        < (digitsValue [c] + 1) * 10 ^ rest.length := by rw [Nat.add_one_mul]; omega
      _ ≤ 10 ^ [c].length * 10 ^ rest.length := Nat.mul_le_mul_right _ first

/-- Digits behind the point are no part of the integer. -/
theorem floor_digitsValue_append (front : List Char) {back : List Char}
    (digits : ∀ c ∈ back, c.isDigit = true) :
    ⌊(digitsValue (front ++ back) : ℚ) / 10 ^ back.length⌋₊ = digitsValue front := by
  have below := digitsValue_lt digits
  rw [show (10 : ℚ) ^ back.length = (10 ^ back.length : Nat) by norm_num, Nat.floor_div_eq_div,
    digitsValue_append, Nat.mul_comm, Nat.mul_add_div (Nat.pow_pos (by decide)),
    Nat.div_eq_of_lt below, Nat.add_zero]

/-- What the digits in front of a text denote. -/
def front (cs : List Char) : Nat := digitsValue (cs.takeWhile Char.isDigit)

theorem front_append {ds rest : List Char} (digits : ∀ c ∈ ds, c.isDigit = true)
    (stop : ∀ c ∈ rest.head?, c.isDigit = false) : front (ds ++ rest) = digitsValue ds := by
  rw [front, takeWhile_append_of_head? digits stop]

end Text

namespace Number

/-! ## 2. Significant digits -/

/-- Nothing but zeros is dropped, from the end. -/
theorem exists_dropZeros_append (ds : List Char) :
    ∃ k, dropZeros ds ++ List.replicate k '0' = ds := by
  have zeros : ds.reverse.takeWhile (· == '0') =
      List.replicate (ds.reverse.takeWhile (· == '0')).length '0' := by
    refine List.eq_replicate_iff.2 ⟨rfl, fun c mem => ?_⟩
    simpa using List.mem_takeWhile_imp mem
  refine ⟨(ds.reverse.takeWhile (· == '0')).length, ?_⟩
  rw [dropZeros, ← List.reverse_replicate, ← zeros, ← List.reverse_append,
    List.takeWhile_append_dropWhile, List.reverse_reverse]

/-- The digits of a number in decimal without the zeros at the end: they start with another digit
than zero, and with the place of the first of them they denote the number. -/
theorem dropZeros_decimalDigits {p : Nat} (pos : p ≠ 0) :
    ∃ d rest, dropZeros (Text.decimalDigits p) = d :: rest ∧ d ≠ '0' ∧
      (∀ c ∈ d :: rest, c.isDigit = true) ∧
      ∃ k, (Text.decimalDigits p).length = (d :: rest).length + k ∧
        p = Text.digitsValue (d :: rest) * 10 ^ k := by
  obtain ⟨k, parts⟩ := exists_dropZeros_append (Text.decimalDigits p)
  have value := Text.digitsValue_decimalDigits p
  have digits : ∀ c ∈ Text.decimalDigits p, c.isDigit = true := fun _ =>
    Text.isDigit_of_mem_decimalDigits
  have first := Text.head?_decimalDigits pos
  rw [← parts, Text.digitsValue_append, Text.digitsValue_zeros, List.length_replicate,
    Nat.add_zero] at value
  rw [← parts] at digits first
  cases significant : dropZeros (Text.decimalDigits p) with
  | nil =>
    rw [significant] at value
    exact absurd (value.symm.trans (Nat.zero_mul _)) pos
  | cons d rest =>
    rw [significant] at value digits first parts
    refine ⟨d, rest, rfl, ?_, fun c mem => digits c (List.mem_append_left _ mem), k, ?_, value.symm⟩
    · simpa using first
    · rw [← parts, List.length_append, List.length_replicate]

/-- Where the first digit of a number stands tells how great it is. -/
theorem cast_lt_zpow_iff {p : Nat} (pos : p ≠ 0) (place bound : Int) :
    (p : ℚ) * 10 ^ place < 10 ^ bound ↔ (Text.decimalDigits p).length + place ≤ bound := by
  have nonempty := List.length_pos_iff.2 (Text.decimalDigits_ne_nil p)
  rw [← lt_div_iff₀ (by positivity), ← zpow_sub₀ (by norm_num)]
  rcases Int.lt_or_le 0 (bound - place) with up | down
  · obtain ⟨k, hk⟩ := Int.eq_ofNat_of_zero_le up.le
    have digits : (Text.decimalDigits p).length ≤ k ↔ p < 10 ^ k :=
      Nat.length_toDigits_le_iff (by decide) (by omega)
    rw [hk, zpow_natCast, show (10 : ℚ) ^ k = (10 ^ k : Nat) by norm_num, Nat.cast_lt, ← digits]
    omega
  · have least : (10 : ℚ) ^ (bound - place) ≤ 1 := zpow_le_one_of_nonpos₀ (by norm_num) down
    have some : (1 : ℚ) ≤ p := Nat.one_le_cast.2 (Nat.pos_of_ne_zero pos)
    constructor
    · intro small
      linarith
    · intro short
      omega

/-! ## 3. What stands in front -/

theorem isDigit_of_mem_zeros {k : Nat} : ∀ c ∈ List.replicate k '0', c.isDigit = true := by
  intro c mem
  rw [List.eq_of_mem_replicate mem]
  rfl

/-- A number that is written out has its integer part in front. -/
theorem front_layout {p : Nat} (pos : p ≠ 0) {place : Int}
    (least : -6 < (Text.decimalDigits p).length + place)
    (most : (Text.decimalDigits p).length + place ≤ positionalPlaces) :
    Text.front (layout p place) = ⌊(p : ℚ) * 10 ^ place⌋₊ := by
  have small := cast_lt_zpow_iff pos place 0
  obtain ⟨d, rest, significant, -, digits, k, length, value⟩ := dropZeros_decimalDigits pos
  simp only [layout, significant, length, Nat.cast_add] at *
  generalize d :: rest = ds at *
  have scaled : (p : ℚ) * 10 ^ place = Text.digitsValue ds * 10 ^ (k + place) := by
    rw [value, zpow_add₀ (by norm_num), zpow_natCast]
    push_cast
    ring
  split
  · -- All digits stand before the point.
    obtain ⟨j, hj⟩ := Int.eq_ofNat_of_zero_le (show 0 ≤ k + place by omega)
    have all := List.forall_mem_append.2 ⟨digits, isDigit_of_mem_zeros (k := j)⟩
    rw [show (ds.length + k + place - ds.length : Int).toNat = j by omega, scaled, hj, Text.front,
      List.takeWhile_eq_self_iff.2 all, Text.digitsValue_append, Text.digitsValue_zeros,
      List.length_replicate, zpow_natCast, Nat.add_zero]
    exact_mod_cast (Nat.floor_natCast (R := ℚ) _).symm
  split
  · -- The point stands among the digits.
    obtain ⟨i, hi⟩ := Int.eq_ofNat_of_zero_le (show 0 ≤ ds.length + k + place by omega)
    have places : (k : Int) + place = -((ds.drop i).length : Int) := by
      rw [List.length_drop]
      omega
    rw [hi, Int.toNat_natCast, scaled, places, zpow_neg, zpow_natCast, ← div_eq_mul_inv,
      Text.front_append (fun c mem => digits c (List.mem_of_mem_take mem)) (by simp),
      ← Text.floor_digitsValue_append (ds.take i) fun c mem => digits c (List.mem_of_mem_drop mem),
      List.take_append_drop]
  split
  · -- The point stands before all digits.
    rw [Nat.floor_eq_zero.2 (by simpa using small.2 (by omega))]
    rfl
  · omega

/-- Written with an exponent it has one digit in front, which is not zero. -/
theorem front_layout_of_exponent {p : Nat} (pos : p ≠ 0) {place : Int}
    (out : ¬(-6 < (Text.decimalDigits p).length + place ∧
      (Text.decimalDigits p).length + place ≤ positionalPlaces)) :
    1 ≤ Text.front (layout p place) ∧ Text.front (layout p place) ≤ 9 := by
  obtain ⟨d, rest, significant, nonzero, digits, -⟩ := dropZeros_decimalDigits pos
  have digit := (List.forall_mem_cons.1 digits).1
  have single : ∀ c ∈ [d], c.isDigit = true := List.forall_mem_singleton.2 digit
  have one : Text.front (layout p place) = Text.digitsValue [d] := by
    simp only [layout, significant]
    rw [if_neg (by omega), if_neg (by omega), if_neg (by omega)]
    cases rest with
    | nil =>
      rw [List.append_assoc]
      refine Text.front_append single ?_
      split <;> simp
    | cons e more => exact Text.front_append single (by simp)
  have below := Text.digitsValue_lt single
  rw [one]
  exact ⟨Text.digitsValue_singleton_pos digit nonzero, Nat.lt_succ_iff.1 below⟩

/-- Either way a digit comes first. -/
theorem layout_head {p : Nat} (pos : p ≠ 0) (place : Int) :
    ∃ c rest, layout p place = c :: rest ∧ c.isDigit = true := by
  obtain ⟨d, rest, significant, -, digits, -⟩ := dropZeros_decimalDigits pos
  have digit := (List.forall_mem_cons.1 digits).1
  simp only [layout, significant]
  split
  · exact ⟨d, _, rfl, digit⟩
  split
  · rename_i inside
    obtain ⟨i, hi⟩ := Nat.exists_eq_succ_of_ne_zero (show ((Text.decimalDigits p).length +
      place).toNat ≠ 0 by omega)
    rw [hi]
    exact ⟨d, _, rfl, digit⟩
  split
  · exact ⟨'0', _, rfl, rfl⟩
  · cases rest with
    | nil => exact ⟨d, _, rfl, digit⟩
    | cons e more => exact ⟨d, _, rfl, digit⟩

end Number

end BenchSettings
