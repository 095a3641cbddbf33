/-
BenchSettings.Number.Nearest — the number nearest to a decimal literal.

A literal denotes an exact quotient. The number nearest to it has at most 53
significant bits, of two that are equally near the one with the even last
bit; what lies beyond the greatest number becomes infinite. All of it is
exact arithmetic on natural numbers (`roundQuotient`, `nearest`).

A whole number is met exactly (`roundQuotient_one`).
-/
import BenchSettings.Number.Basic
import BenchSettings.Text.Digits

namespace BenchSettings.Number

/-! ## 1. Rounding a quotient -/

/-- The whole number nearest to `num / den`, of two equally near the even one. -/
def roundQuotient (num den : Nat) : Nat :=
  let q := num / den
  let r := num % den
  if 2 * r < den then q
  else if den < 2 * r then q + 1
  else q + q % 2

theorem roundQuotient_one (n : Nat) : roundQuotient n 1 = n := by
  simp [roundQuotient, Nat.mod_one]

/-! ## 2. Numbers from significant bits -/

/-- Removes factors of two that `numerator` and its `halvings` share. -/
def reduce (numerator : Nat) : Nat → Nat × Nat
  | 0 => (numerator, 0)
  | k + 1 => if numerator % 2 = 0 then reduce (numerator / 2) k else (numerator, k + 1)

/-- The number `significand · 2 ^ exponent`, with its sign. -/
def ofBits (negative : Bool) (significand : Nat) (exponent : Int) : Number :=
  match exponent with
  | .ofNat e => .integer (Text.withSign negative (significand * 2 ^ e))
  | .negSucc e =>
    match reduce significand (e + 1) with
    | (n, 0) => .integer (Text.withSign negative n)
    | (n, k) => .fraction (Text.withSign negative n) k

/-- Significant bits of a double. -/
def precision : Nat := 53

/-- The exponent of the last bit of the least numbers. -/
def leastExponent : Int := -1074

/-- The exponent of the first power of two that no double reaches. -/
def greatestExponent : Nat := 1024

def overflow : Nat := 2 ^ greatestExponent

/-- The exponent of the leading bit of `num / den`. -/
def leadingExponent (num den : Nat) : Int :=
  let guess : Int := (Nat.log2 num : Int) - Nat.log2 den
  if den * 2 ^ guess.toNat ≤ num * 2 ^ (-guess).toNat then guess else guess - 1

/-- The exponent of the last bit that a double near `num / den` has. -/
def lastExponent (num den : Nat) : Int :=
  max (leadingExponent num den - (precision - 1 : Nat)) leastExponent

/-- The number nearest to `num / den`, with its sign. -/
def nearest (negative : Bool) (num den : Nat) : Number :=
  if num = 0 then .integer 0
  else
    let e := lastExponent num den
    let significand := roundQuotient (num * 2 ^ (-e).toNat) (den * 2 ^ e.toNat)
    if overflow ≤ significand * 2 ^ e.toNat then .infinite negative
    else ofBits negative significand e

/-! ## 3. Decimal literals -/

/-- A literal of this many digits before the point is beyond every number. -/
def greatestPosition : Int := 310

/-- A literal with this many zeros after the point is nearest to zero. -/
def leastPosition : Int := -330

/-- The number nearest to `coefficient · 10 ^ exponent`. Literals far outside the range of doubles
are settled by the position of their first digit. -/
def ofDecimal (negative : Bool) (coefficient : Nat) (exponent : Int) : Number :=
  if coefficient = 0 then .integer 0
  else
    let position := ((Text.decimalDigits coefficient).length : Int) + exponent
    if greatestPosition < position then .infinite negative
    else if position < leastPosition then .integer 0
    else nearest negative (coefficient * 10 ^ exponent.toNat) (10 ^ (-exponent).toNat)

/-- The number nearest to what a run of digits denotes, with its sign. -/
def ofDigits (negative : Bool) (ds : List Char) : Number :=
  ofDecimal negative (Text.digitsValue ds) 0

end BenchSettings.Number
