/-
BenchSettings.Text.Distance — how many typing mistakes lie between two texts.

A mistake leaves a character out, puts one in, takes another one instead, or
swaps two neighbours. `distance` is the least number of mistakes that turn one
text into the other when no character is part of two of them.
-/

namespace BenchSettings.Text

/-- The mistake of taking one character for another, which is none if they are the same. -/
def mismatch {α : Type} [DecidableEq α] (x y : α) : Nat := if x = y then 0 else 1

/-- The least number of mistakes between two texts. -/
def distance {α : Type} [DecidableEq α] : List α → List α → Nat
  | [], b => b.length
  | a, [] => a.length
  | x :: a, y :: b =>
    let one := min (min (distance a (y :: b) + 1) (distance (x :: a) b + 1))
      (distance a b + mismatch x y)
    match a, b with
    | x' :: a', y' :: b' => if x = y' ∧ x' = y then min one (distance a' b' + 1) else one
    | _, _ => one
termination_by a b => a.length + b.length

end BenchSettings.Text
