/-
BenchSettings.Number.Shortest — numbers written with the fewest digits.

A number is written with the fewest significant digits that still denote it
and no other number, and of the texts with that many digits the nearest to it.
`shortest` finds them: around a number lies the interval of quantities that
round to it, and for one digit, two digits and so on up to seventeen the two
neighbours of the number on that decimal grid are tried against the interval.
Everything is compared after multiplying out, so only natural numbers occur.

`layout` places the digits: positionally while the first digit stands at most
21 places before the point or 6 after it, with an exponent otherwise.
-/
import BenchSettings.Number.Nearest

namespace BenchSettings.Number

/-! ## 1. The interval of a number -/

/-- A positive number `significand · 2 ^ exponent` with the quantities that round to it. Quantities
are counted in quarters of the last bit, so the number is `4 · significand` of them. -/
structure Span where
  significand : Nat
  exponent : Int
  deriving Repr

namespace Span

def ofQuotient (num den : Nat) : Span :=
  let e := lastExponent num den
  ⟨num * 2 ^ (-e).toNat / (den * 2 ^ e.toNat), e⟩

def centre (s : Span) : Nat := 4 * s.significand

/-- The least quantity that rounds to the number. It is nearer below a power of two, where the
numbers lie twice as close. -/
def low (s : Span) : Nat :=
  if s.significand = 2 ^ (precision - 1) ∧ s.exponent ≠ leastExponent then s.centre - 1
  else s.centre - 2

/-- The greatest quantity that rounds to the number. -/
def high (s : Span) : Nat := s.centre + 2

/-- Whether a quantity `x`, counted in quarters of `scale`, rounds to the number. Both ends do when
the significand is even. -/
def admits (s : Span) (x scale : Nat) : Bool :=
  if s.significand % 2 = 0 then decide (s.low * scale ≤ x) && decide (x ≤ s.high * scale)
  else decide (s.low * scale < x) && decide (x < s.high * scale)

end Span

/-! ## 2. The fewest digits -/

def tens (exponent : Int) : Nat := 10 ^ exponent.toNat

def twos (exponent : Int) : Nat := 2 ^ exponent.toNat

/-- The point of the grid of multiples of `10 ^ place` that denotes the number, if there is one: of
the two neighbours the nearer, at equal distance the even one. -/
def gridPoint? (s : Span) (place : Int) : Option Nat :=
  let step := tens place * twos (2 - s.exponent)
  let scale := tens (-place) * twos (s.exponent - 2)
  let target := s.centre * scale
  let below := target / step
  let above := below + 1
  match s.admits (below * step) scale, s.admits (above * step) scale with
  | false, false => none
  | true, false => some below
  | false, true => some above
  | true, true =>
    let short := target - below * step
    let long := above * step - target
    if short < long then some below
    else if long < short then some above
    else some (below + below % 2)

/-- Places after the point within which every number has its first digit. -/
def enoughPlaces : Nat := 400

/-- Where the first digit of `num / den` stands: so many places before the point, or after it if
negative. -/
def position (num den : Nat) : Int :=
  ((Text.decimalDigits (num * 10 ^ enoughPlaces / den)).length : Int) - enoughPlaces

/-- Digits enough for every number. -/
def enoughDigits : Nat := 17

/-- The fewest digits that denote `num / den`, and the place of the last of them. -/
def shortest (num den : Nat) : Nat × Int :=
  let s := Span.ofQuotient num den
  let first := position num den
  let tries := (List.range enoughDigits).map fun k => first - (k + 1 : Nat)
  (tries.findSome? fun place => (gridPoint? s place).map (·, place)).getD (0, 0)

/-! ## 3. Layout -/

def dropZeros (ds : List Char) : List Char := (ds.reverse.dropWhile (· == '0')).reverse

/-- How many places before the point are written out. -/
def positionalPlaces : Nat := 21

/-- The decimal text of `digits · 10 ^ place`. -/
def layout (digits : Nat) (place : Int) : List Char :=
  let all := Text.decimalDigits digits
  let first : Int := all.length + place
  let ds := dropZeros all
  let count : Int := ds.length
  if count ≤ first ∧ first ≤ positionalPlaces then ds ++ List.replicate (first - count).toNat '0'
  else if 0 < first ∧ first ≤ positionalPlaces then
    ds.take first.toNat ++ '.' :: ds.drop first.toNat
  else if -6 < first ∧ first ≤ 0 then '0' :: '.' :: List.replicate (-first).toNat '0' ++ ds
  else
    let exponent := first - 1
    let mark := if 0 ≤ exponent then ['e', '+'] else ['e', '-']
    let mantissa := match ds with
      | [] => ['0']
      | [d] => [d]
      | d :: more => d :: '.' :: more
    mantissa ++ mark ++ Text.decimalDigits exponent.natAbs

def positiveText (num den : Nat) : List Char :=
  let (digits, place) := shortest num den
  layout digits place

/-- Whole numbers up to here are written with all their digits: no two of them are so near that
fewer would do. -/
def allDigitsBelow : Nat := 2 ^ precision

def text : Number → String
  | .integer n =>
    if n.natAbs ≤ allDigitsBelow then Text.decimal n
    else String.ofList ((if n < 0 then ['-'] else []) ++ positiveText n.natAbs 1)
  | .fraction n k =>
    String.ofList ((if n < 0 then ['-'] else []) ++ positiveText n.natAbs (2 ^ k))
  | .infinite negative => if negative then "-Infinity" else "Infinity"
  | .nan => "NaN"

/-! ## 4. Divisibility -/

/-- Whole numbers from here on are written with an exponent. -/
def exponentFrom : Nat := 10 ^ positionalPlaces

/-- The number nearest to a natural number, which is a whole number unless it is infinite. -/
def nearestWhole (n : Nat) : Nat :=
  match nearest false n 1 with
  | .integer m => m.natAbs
  | _ => 0

/-- Whether the positive number `num / den` is a multiple of a whole number. Both are written with
as many decimals as the text of the quotient has characters after its point, and the digits are
read as whole numbers, each to the nearest number there is. A great number is written with its
exponent all the same, and read up to that. -/
def isQuotientMultipleOf (step num den : Nat) : Bool :=
  let shown := positiveText num den
  let decimals := (shown.dropWhile (· != '.')).length - 1
  let digits :=
    if exponentFrom * den ≤ num then
      Text.digitsValue ((shown.takeWhile (· != 'e')).filter (· != '.'))
    else (2 * (num * 10 ^ decimals) + den) / (2 * den)
  nearestWhole digits % nearestWhole (step * 10 ^ decimals) == 0

/-- Whether a number is a multiple of a whole number, as far as its text tells. -/
def isMultipleOf (step : Nat) : Number → Bool
  | .integer n =>
    if n.natAbs < exponentFrom then n % step == 0 else isQuotientMultipleOf step n.natAbs 1
  | .fraction n k => isQuotientMultipleOf step n.natAbs (2 ^ k)
  | .infinite _ | .nan => false

end BenchSettings.Number
