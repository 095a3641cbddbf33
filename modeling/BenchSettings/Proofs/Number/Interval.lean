/-
BenchSettings.Proofs.Number.Interval — how near a number its digits are.

The printer looks for digits on one decimal grid after the other and takes the
first point of a grid that rounds to the number. It compares natural numbers
only; here they are read as the rational numbers they stand for. A point that
is taken misses the number by at most half of its last bit (`gridPoint?_near`).
The grid of seventeen digits is finer than the bits of any number, so there is
always a point to take (`exists_gridPoint?`), and the search succeeds on every
quotient that is not too small to have digits at all (`shortest_near`).
-/
import BenchSettings.Number.Shortest
import Mathlib.Algebra.Order.Field.Power
import Mathlib.Data.Rat.Cast.Order
import Mathlib.Tactic.FieldSimp
import Mathlib.Tactic.Linarith
import Mathlib.Tactic.NormNum
import Mathlib.Tactic.Positivity
import Mathlib.Tactic.Ring

namespace BenchSettings.Number

/-! ## 1. Powers with a sign -/

/-- The positive and the negative part of an exponent make the power. -/
theorem cast_pow_toNat {b : Nat} (pos : b ≠ 0) (exponent : Int) :
    ((b ^ exponent.toNat : Nat) : ℚ) = (b ^ (-exponent).toNat : Nat) * (b : ℚ) ^ exponent := by
  have nonzero : (b : ℚ) ≠ 0 := Nat.cast_ne_zero.2 pos
  rcases Int.le_total 0 exponent with up | down
  · obtain ⟨k, rfl⟩ := Int.eq_ofNat_of_zero_le up
    simp
  · obtain ⟨k, hk⟩ := Int.eq_ofNat_of_zero_le (Int.neg_nonneg_of_nonpos down)
    obtain rfl : exponent = -(k : Int) := by omega
    simp [nonzero]

theorem cast_tens (place : Int) : (tens place : ℚ) = tens (-place) * 10 ^ place :=
  cast_pow_toNat (by decide) place

theorem cast_twos (exponent : Int) : (twos exponent : ℚ) = twos (-exponent) * 2 ^ exponent :=
  cast_pow_toNat (by decide) exponent

theorem tens_pos (place : Int) : 0 < tens place := Nat.pow_pos (by decide)

theorem twos_pos (exponent : Int) : 0 < twos exponent := Nat.pow_pos (by decide)

/-! ## 2. The interval of a number -/

namespace Span

variable (s : Span)

/-- What the last bit of the number counts. -/
def unit : ℚ := 2 ^ s.exponent

/-- The number that a span is about. -/
def value : ℚ := s.significand * s.unit

theorem unit_pos : 0 < s.unit := zpow_pos (by norm_num) _

variable {s}

theorem bounds_of_admits {x scale : Nat} (admitted : s.admits x scale = true) :
    s.low * scale ≤ x ∧ x ≤ s.high * scale := by
  simp only [admits] at admitted
  split at admitted <;> simp only [Bool.and_eq_true, decide_eq_true_eq] at admitted <;> omega

theorem admits_of_between {x scale : Nat} (above : s.low * scale < x) (below : x < s.high * scale) :
    s.admits x scale = true := by
  simp only [admits]
  split <;> simp only [Bool.and_eq_true, decide_eq_true_eq] <;> omega

theorem low_ge : 4 * s.significand ≤ s.low + 2 := by
  simp only [low, centre]
  split <;> omega

theorem high_eq : s.high = 4 * s.significand + 2 := rfl

end Span

/-! ## 3. Points of a grid -/

/-- The measure in which the points of a grid and the bits of a number are compared. -/
theorem step_mul_unit (s : Span) (place : Int) :
    ((tens place * twos (2 - s.exponent) : Nat) : ℚ) * s.unit =
      4 * 10 ^ place * (tens (-place) * twos (s.exponent - 2) : Nat) := by
  have bits : (twos (2 - s.exponent) : ℚ) * s.unit = 4 * twos (s.exponent - 2) := by
    rw [cast_twos (2 - s.exponent), neg_sub, Span.unit, mul_assoc, ← zpow_add₀ (by norm_num),
      show (2 : Int) - s.exponent + s.exponent = 2 by ring]
    norm_num
    ring
  push_cast
  rw [mul_assoc, bits, cast_tens place]
  ring

theorem scale_pos (s : Span) (place : Int) : 0 < tens (-place) * twos (s.exponent - 2) :=
  Nat.mul_pos (tens_pos _) (twos_pos _)

/-- A point that is admitted misses the number by half of its last bit at most. -/
theorem near_of_admits {s : Span} {place : Int} {p : Nat}
    (admitted : s.admits (p * (tens place * twos (2 - s.exponent)))
      (tens (-place) * twos (s.exponent - 2)) = true) :
    |p * 10 ^ place - s.value| ≤ s.unit / 2 := by
  have measure := step_mul_unit s place
  have positive := scale_pos s place
  obtain ⟨lower, upper⟩ := Span.bounds_of_admits admitted
  generalize tens place * twos (2 - s.exponent) = step at *
  generalize tens (-place) * twos (s.exponent - 2) = scale at *
  have unit := s.unit_pos
  have scale' : (0 : ℚ) < scale := Nat.cast_pos.2 positive
  have point : (p * step : ℚ) * s.unit = 4 * (p * 10 ^ place) * scale := by
    rw [mul_assoc, measure]
    ring
  have lower' : (4 * s.significand - 2 : ℚ) * scale ≤ p * step := by
    have low : (4 * s.significand : ℚ) ≤ s.low + 2 := by exact_mod_cast s.low_ge
    have : (s.low * scale : ℚ) ≤ p * step := by exact_mod_cast lower
    nlinarith
  have upper' : (p * step : ℚ) ≤ (4 * s.significand + 2) * scale := by
    exact_mod_cast s.high_eq ▸ upper
  have left : ((4 * s.significand - 2) * s.unit) * scale ≤ (4 * (p * 10 ^ place)) * scale := by
    rw [← point]
    nlinarith
  have right : (4 * (p * 10 ^ place)) * scale ≤ ((4 * s.significand + 2) * s.unit) * scale := by
    rw [← point]
    nlinarith
  have left' := le_of_mul_le_mul_right left scale'
  have right' := le_of_mul_le_mul_right right scale'
  rw [Span.value, abs_le]
  constructor <;> linarith

/-- A point that is taken is one of the two neighbours, and is admitted. -/
theorem admits_of_gridPoint? {s : Span} {place : Int} {p : Nat}
    (found : gridPoint? s place = some p) :
    s.admits (p * (tens place * twos (2 - s.exponent)))
      (tens (-place) * twos (s.exponent - 2)) = true := by
  simp only [gridPoint?] at found
  generalize tens place * twos (2 - s.exponent) = step at *
  generalize tens (-place) * twos (s.exponent - 2) = scale at *
  generalize s.centre * scale / step = below at *
  split at found
  · cases found
  · rename_i admitted _
    cases found
    exact admitted
  · rename_i _ admitted
    cases found
    exact admitted
  · rename_i first second
    split at found
    · cases found
      exact first
    split at found
    · cases found
      exact second
    · cases found
      rcases Nat.mod_two_eq_zero_or_one below with even | odd
      · rwa [even]
      · rwa [odd]

theorem gridPoint?_near {s : Span} {place : Int} {p : Nat} (found : gridPoint? s place = some p) :
    |p * 10 ^ place - s.value| ≤ s.unit / 2 :=
  near_of_admits (admits_of_gridPoint? found)

/-- A grid with a point that is admitted has a point to take. -/
theorem exists_gridPoint?_of_admits {s : Span} {place : Int} :
    let step := tens place * twos (2 - s.exponent)
    let scale := tens (-place) * twos (s.exponent - 2)
    let below := s.centre * scale / step
    s.admits (below * step) scale = true ∨ s.admits ((below + 1) * step) scale = true →
      ∃ p, gridPoint? s place = some p := by
  intro step scale below admitted
  simp only [gridPoint?]
  split
  · rename_i first second
    rcases admitted with h | h
    · exact nomatch h.symm.trans first
    · exact nomatch h.symm.trans second
  · exact ⟨_, rfl⟩
  · exact ⟨_, rfl⟩
  · split
    · exact ⟨_, rfl⟩
    split <;> exact ⟨_, rfl⟩

/-- Where the points of a grid stand close enough, the nearer of the two neighbours is admitted. -/
theorem exists_gridPoint? {s : Span} {place : Int} (pos : 0 < s.significand)
    (bits : s.significand < 2 ^ precision)
    (fine : 10 ^ 16 * (tens place * twos (2 - s.exponent)) ≤
      4 * (s.significand + 1) * (tens (-place) * twos (s.exponent - 2))) :
    ∃ p, gridPoint? s place = some p := by
  refine exists_gridPoint?_of_admits ?_
  have positive := scale_pos s place
  have spread : 0 < tens place * twos (2 - s.exponent) := Nat.mul_pos (tens_pos _) (twos_pos _)
  generalize tens place * twos (2 - s.exponent) = step at *
  generalize tens (-place) * twos (s.exponent - 2) = scale at *
  have whole := Nat.div_add_mod (s.centre * scale) step
  have part := Nat.mod_lt (s.centre * scale) spread
  generalize s.centre * scale / step = below at *
  generalize s.centre * scale % step = surplus at *
  have target : s.centre * scale = 4 * (s.significand * scale) := by
    rw [Span.centre, Nat.mul_assoc]
  have low : s.low * scale + 2 * scale = 4 * (s.significand * scale) ∨
      s.significand = 2 ^ 52 ∧ s.low * scale + scale = 4 * (s.significand * scale) := by
    simp only [Span.low, ← target]
    split
    · rename_i power
      refine .inr ⟨power.1, ?_⟩
      rw [← Nat.succ_mul, Nat.succ_eq_add_one, Nat.sub_add_cancel (by simp [Span.centre]; omega)]
    · refine .inl ?_
      rw [← Nat.add_mul, Nat.sub_add_cancel (by simp [Span.centre]; omega)]
  have high : s.high * scale = 4 * (s.significand * scale) + 2 * scale := by
    rw [Span.high, Nat.add_mul, target]
  have most : s.significand * scale + scale ≤ 2 ^ 53 * scale := by
    rw [← Nat.succ_mul]
    exact Nat.mul_le_mul_right scale bits
  have fine' : 10 ^ 16 * step ≤ 4 * (s.significand * scale + scale) := by
    rw [← Nat.succ_mul, ← Nat.mul_assoc]
    exact fine
  have next : (below + 1) * step = step * below + step := by ring
  rw [Nat.mul_comm below step, next]
  by_cases nearer : 2 * surplus ≤ step
  · refine .inl (Span.admits_of_between ?_ ?_)
    · rcases low with two | ⟨power, one⟩
      · omega
      · have exact : s.significand * scale = 2 ^ 52 * scale := by rw [power]
        omega
    · omega
  · refine .inr (Span.admits_of_between ?_ ?_)
    · rcases low with two | ⟨-, one⟩ <;> omega
    · omega

/-! ## 4. The span of a quotient -/

section

variable {num den : Nat} (pos : 0 < den)

include pos

/-- The leading bit of a quotient is part of it. -/
theorem leadingExponent_le (nonzero : num ≠ 0) :
    2 ^ leadingExponent num den ≤ (num : ℚ) / den := by
  rw [le_div_iff₀ (Nat.cast_pos.2 pos)]
  simp only [leadingExponent]
  generalize guess : (Nat.log2 num : Int) - Nat.log2 den = g
  split
  · rename_i reached
    have less : ((den * 2 ^ g.toNat : Nat) : ℚ) ≤ (num * 2 ^ (-g).toNat : Nat) :=
      Nat.cast_le.2 reached
    have shift : (0 : ℚ) < (2 ^ (-g).toNat : Nat) := Nat.cast_pos.2 (Nat.two_pow_pos _)
    rw [Nat.cast_mul, Nat.cast_mul, cast_pow_toNat (by decide) g] at less
    push_cast at *
    nlinarith
  · have top : (den : ℚ) ≤ 2 ^ (Nat.log2 den + 1) := by exact_mod_cast Nat.lt_log2_self.le
    have bottom : (2 : ℚ) ^ Nat.log2 num ≤ num := by exact_mod_cast Nat.log2_self_le nonzero
    calc (2 : ℚ) ^ (g - 1) * den ≤ 2 ^ (g - 1) * 2 ^ (Nat.log2 den + 1) := by gcongr
      _ = 2 ^ Nat.log2 num := by
          rw [← zpow_natCast, ← zpow_natCast, ← zpow_add₀ (by norm_num)]
          congr 1
          omega
      _ ≤ num := bottom

/-- No quotient reaches the power of two above its leading bit. -/
theorem lt_leadingExponent : (num : ℚ) / den < 2 ^ (leadingExponent num den + 1) := by
  have den' : (0 : ℚ) < den := Nat.cast_pos.2 pos
  rw [div_lt_iff₀ den']
  simp only [leadingExponent]
  generalize guess : (Nat.log2 num : Int) - Nat.log2 den = g
  split
  · have top : (num : ℚ) < 2 ^ (Nat.log2 num + 1) := by exact_mod_cast Nat.lt_log2_self
    have bottom : (2 : ℚ) ^ Nat.log2 den ≤ den := by
      exact_mod_cast Nat.log2_self_le (Nat.pos_iff_ne_zero.1 pos)
    calc (num : ℚ) < 2 ^ (Nat.log2 num + 1) := top
      _ = 2 ^ (g + 1) * 2 ^ Nat.log2 den := by
          rw [← zpow_natCast, ← zpow_natCast, ← zpow_add₀ (by norm_num)]
          congr 1
          omega
      _ ≤ 2 ^ (g + 1) * den := by gcongr
  · rename_i short
    have less : ((num * 2 ^ (-g).toNat : Nat) : ℚ) < (den * 2 ^ g.toNat : Nat) :=
      Nat.cast_lt.2 (Nat.not_le.1 short)
    have shift : (0 : ℚ) < (2 ^ (-g).toNat : Nat) := Nat.cast_pos.2 (Nat.two_pow_pos _)
    rw [Nat.cast_mul, Nat.cast_mul, cast_pow_toNat (by decide) g] at less
    rw [show g - 1 + 1 = g by omega]
    push_cast at *
    nlinarith

/-- A quotient is cut off to whole bits. -/
theorem Span.value_ofQuotient : (ofQuotient num den).value ≤ (num : ℚ) / den ∧
    (num : ℚ) / den < (ofQuotient num den).value + (ofQuotient num den).unit := by
  have den' : (0 : ℚ) < den := Nat.cast_pos.2 pos
  have spread : 0 < den * 2 ^ (lastExponent num den).toNat :=
    Nat.mul_pos pos (Nat.two_pow_pos _)
  rw [le_div_iff₀ den', div_lt_iff₀ den']
  simp only [value, unit, ofQuotient]
  generalize lastExponent num den = e at *
  have shift : (0 : ℚ) < (2 ^ (-e).toNat : Nat) := Nat.cast_pos.2 (Nat.two_pow_pos _)
  have lower := Nat.div_mul_le_self (num * 2 ^ (-e).toNat) (den * 2 ^ e.toNat)
  have upper := Nat.lt_mul_div_succ (num * 2 ^ (-e).toNat) spread
  generalize num * 2 ^ (-e).toNat / (den * 2 ^ e.toNat) = significand at *
  have lower' : ((significand * (den * 2 ^ e.toNat) : Nat) : ℚ) ≤ (num * 2 ^ (-e).toNat : Nat) :=
    Nat.cast_le.2 lower
  have upper' : ((num * 2 ^ (-e).toNat : Nat) : ℚ) <
      (den * 2 ^ e.toNat * (significand + 1) : Nat) := Nat.cast_lt.2 upper
  rw [Nat.cast_mul, Nat.cast_mul, Nat.cast_mul, cast_pow_toNat (by decide) e] at lower' upper'
  push_cast at *
  constructor <;> nlinarith

/-- A significand has 53 bits at most. -/
theorem significand_lt : (Span.ofQuotient num den).significand < 2 ^ precision := by
  have top : (2 : ℚ) ^ (leadingExponent num den + 1) ≤ 2 ^ precision * 2 ^ lastExponent num den := by
    rw [← zpow_natCast, ← zpow_add₀ (by norm_num)]
    refine zpow_le_zpow_right₀ (by norm_num) ?_
    simp only [lastExponent, precision]
    omega
  have cut : ((Span.ofQuotient num den).significand : ℚ) * 2 ^ lastExponent num den <
      2 ^ precision * 2 ^ lastExponent num den :=
    ((Span.value_ofQuotient pos).1.trans_lt (lt_leadingExponent pos)).trans_le top
  exact_mod_cast lt_of_mul_lt_mul_right cut (by positivity)

/-! ## 5. The search -/

/-- A quotient reaches the power of ten at its first digit. -/
theorem position_le (reached : den ≤ num * 10 ^ enoughPlaces) :
    (10 : ℚ) ^ (position num den - 1) ≤ (num : ℚ) / den := by
  have some : 1 ≤ num * 10 ^ enoughPlaces / den := (Nat.one_le_div_iff pos).2 reached
  have whole := Nat.div_mul_le_self (num * 10 ^ enoughPlaces) den
  simp only [position]
  generalize num * 10 ^ enoughPlaces / den = n at *
  obtain ⟨more, length⟩ : ∃ more, (Text.decimalDigits n).length = more + 1 :=
    Nat.exists_eq_succ_of_ne_zero fun none =>
      Text.decimalDigits_ne_nil n (List.eq_nil_of_length_eq_zero none)
  have digits : 10 ^ more ≤ n := by
    cases more with
    | zero => exact some
    | succ more =>
      refine Nat.not_lt.1 fun small => ?_
      have short := (Nat.length_toDigits_le_iff (by decide) (Nat.succ_pos more)).2 small
      rw [Text.decimalDigits] at length
      omega
  have total : ((10 ^ more * den : Nat) : ℚ) ≤ (num * 10 ^ enoughPlaces : Nat) :=
    Nat.cast_le.2 ((Nat.mul_le_mul_right den digits).trans whole)
  push_cast at total
  rw [le_div_iff₀ (Nat.cast_pos.2 pos), length,
    show ((more + 1 : Nat) : Int) - enoughPlaces - 1 = more - enoughPlaces by omega,
    zpow_sub₀ (by norm_num), zpow_natCast, zpow_natCast, div_mul_eq_mul_div,
    div_le_iff₀ (by positivity)]
  exact total

/-- The grid of the seventeenth digit has a point to take. -/
theorem exists_gridPoint?_last (reached : den ≤ num * 10 ^ enoughPlaces)
    (nonzero : 0 < (Span.ofQuotient num den).significand) :
    ∃ p, gridPoint? (Span.ofQuotient num den) (position num den - enoughDigits) = some p := by
  refine exists_gridPoint? nonzero (significand_lt pos) ?_
  have first := (position_le pos reached).trans (Span.value_ofQuotient pos).2.le
  have places : (10 : ℚ) ^ (position num den - 1) =
      10 ^ 16 * 10 ^ (position num den - enoughDigits) := by
    rw [← zpow_natCast, ← zpow_add₀ (by norm_num)]
    congr 1
    simp only [enoughDigits]
    omega
  rw [places, Span.value, ← add_one_mul] at first
  generalize Span.ofQuotient num den = s at *
  generalize position num den - enoughDigits = place at *
  have measure := step_mul_unit s place
  generalize tens place * twos (2 - s.exponent) = step at *
  generalize tens (-place) * twos (s.exponent - 2) = scale at *
  have fine : (10 ^ 16 * step : ℚ) * s.unit ≤ 4 * (s.significand + 1) * scale * s.unit :=
    calc (10 ^ 16 * step : ℚ) * s.unit = 4 * (10 ^ 16 * 10 ^ place) * scale := by
          rw [mul_assoc, measure]
          ring
      _ ≤ 4 * ((s.significand + 1) * s.unit) * scale := by gcongr
      _ = 4 * (s.significand + 1) * scale * s.unit := by ring
  exact_mod_cast le_of_mul_le_mul_right fine s.unit_pos

/-- The digits that are found miss the number by half of its last bit at most. -/
theorem shortest_near (reached : den ≤ num * 10 ^ enoughPlaces)
    (nonzero : 0 < (Span.ofQuotient num den).significand) :
    |((shortest num den).1 : ℚ) * 10 ^ (shortest num den).2 - (Span.ofQuotient num den).value| ≤
      (Span.ofQuotient num den).unit / 2 := by
  obtain ⟨last, taken⟩ := exists_gridPoint?_last pos reached nonzero
  simp only [shortest]
  cases found : ((List.range enoughDigits).map fun k => position num den - (k + 1 : Nat)).findSome?
      fun place => (gridPoint? (Span.ofQuotient num den) place).map (·, place) with
  | none =>
    have missed := List.findSome?_eq_none_iff.1 found (position num den - enoughDigits)
      (List.mem_map.2 ⟨16, by decide, rfl⟩)
    rw [taken] at missed
    cases missed
  | some result =>
    obtain ⟨place, -, here⟩ := List.exists_of_findSome?_eq_some found
    obtain ⟨p, point, rfl⟩ := Option.map_eq_some_iff.1 here
    exact gridPoint?_near point

end

end BenchSettings.Number
