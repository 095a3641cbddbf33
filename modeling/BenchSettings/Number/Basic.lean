/-
BenchSettings.Number.Basic — numbers in double precision, as exact data.

A number is one that a double can hold, and it is kept exactly: as an integer
where it is one, as an odd numerator over a power of two where it is not, and
as one of the infinities or "not a number". So equality is equality of
numbers, and nothing about a number is hidden from a proof. Zero has no sign
here, since nothing in this library shows it.

This module holds the order against integers, truncation, and divisibility;
`Number.Nearest` makes numbers from decimal literals and `Number.Shortest`
writes them.
-/

namespace BenchSettings

/- Powers mean the same in every module, whatever else it imports. -/
attribute [scoped instance (2000)] instPowNat

/-- A number that a double can hold. -/
inductive Number where
  /-- A whole number. -/
  | integer (value : Int)
  /-- An odd `numerator` halved `halvings` times, at least once. -/
  | fraction (numerator : Int) (halvings : Nat)
  | infinite (negative : Bool)
  | nan
  deriving DecidableEq, Repr

namespace Number

instance : OfNat Number n := ⟨.integer n⟩

def isInteger : Number → Bool
  | .integer _ => true
  | _ => false

def atLeast (least : Int) : Number → Bool
  | .integer n => decide (least ≤ n)
  | .fraction n k => decide (least * 2 ^ k ≤ n)
  | .infinite negative => !negative
  | .nan => false

def exceeds (bound : Int) : Number → Bool
  | .integer n => decide (bound < n)
  | .fraction n k => decide (bound * 2 ^ k < n)
  | .infinite negative => !negative
  | .nan => false

/-- The integer part, the fraction cut off toward zero; none for the infinities and for "not a
number". -/
def truncate? : Number → Option Int
  | .integer n => some n
  | .fraction n k => some (Int.tdiv n (2 ^ k))
  | .infinite _ | .nan => none

end Number

end BenchSettings
