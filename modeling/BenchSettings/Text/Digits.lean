/-
BenchSettings.Text.Digits — whole numbers written in decimal digits.

Writing gives the shortest decimal text (`decimal`). Reading knows one strict
form, an optional sign and at least one digit with nothing around it
(`plainDigits?`), which denotes an exact integer however long it is
(`plainWhole?`). The lenient reader of settings is built from the same pieces,
`splitSign` and `digitsValue`, in `BenchSettings.Setting.Reading`.
-/

namespace BenchSettings.Text

/-! ## 1. Writing -/

def decimalDigits (n : Nat) : List Char := Nat.toDigits 10 n

/-- The decimal text of an integer; only a negative one carries a sign. -/
def decimal : Int → String
  | .ofNat n => String.ofList (decimalDigits n)
  | .negSucc n => String.ofList ('-' :: decimalDigits (n + 1))

/-! ## 2. Reading -/

def digitsValue (ds : List Char) : Nat := Nat.ofDigitChars 10 ds 0

/-- Takes one sign, if there is one, and tells whether it is a minus. -/
def splitSign : List Char → Bool × List Char
  | '-' :: rest => (true, rest)
  | '+' :: rest => (false, rest)
  | cs => (false, cs)

def withSign (negative : Bool) (n : Nat) : Int := if negative then -(n : Int) else n

/-- The sign and the digits of a text that is an optional sign and one or more digits, and nothing
else. -/
def plainDigits? (cs : List Char) : Option (Bool × List Char) :=
  let (negative, ds) := splitSign cs
  if ds ≠ [] ∧ ds.all Char.isDigit then some (negative, ds) else none

/-- The integer that such a text denotes. -/
def plainWhole? (cs : List Char) : Option Int :=
  (plainDigits? cs).map fun (negative, ds) => withSign negative (digitsValue ds)

/-! ## 3. Reading back what was written -/

theorem digitsValue_decimalDigits (n : Nat) : digitsValue (decimalDigits n) = n :=
  Nat.ofDigitChars_toDigits (by decide) (by decide)

theorem isDigit_of_mem_decimalDigits {n : Nat} {c : Char} (h : c ∈ decimalDigits n) :
    c.isDigit = true :=
  Nat.isDigit_of_mem_toDigits (by decide) (by decide) h

theorem toNat_of_isDigit {c : Char} (h : c.isDigit = true) : 48 ≤ c.toNat ∧ c.toNat ≤ 57 := by
  simp only [Char.isDigit, Bool.and_eq_true, decide_eq_true_eq] at h
  exact h

theorem decimalDigits_ne_nil (n : Nat) : decimalDigits n ≠ [] := Nat.toDigits_ne_nil

/-- Only zero is written with a zero in front. -/
theorem head?_decimalDigits {n : Nat} (pos : n ≠ 0) : (decimalDigits n).head? ≠ some '0' := by
  induction n using Nat.strongRecOn with
  | ind n ih =>
    rw [decimalDigits]
    by_cases one : n < 10
    · have all : ∀ d < 10, d ≠ 0 → (Nat.toDigits 10 d).head? ≠ some '0' := by decide
      exact all n one pos
    · have front : (decimalDigits (n / 10)).head? ≠ some '0' := ih (n / 10) (by omega) (by omega)
      rw [Nat.toDigits_of_base_le (by decide) (by omega), List.head?_append]
      obtain ⟨c, cs, h⟩ := List.exists_cons_of_ne_nil (decimalDigits_ne_nil (n / 10))
      rw [decimalDigits] at h front
      rw [h] at front ⊢
      exact front

theorem splitSign_of_digit {c : Char} (h : c.isDigit = true) (cs : List Char) :
    splitSign (c :: cs) = (false, c :: cs) := by
  unfold splitSign
  split
  · rename_i e; cases e; exact absurd h (by decide)
  · rename_i e; cases e; exact absurd h (by decide)
  · rfl

/-- The digits of a number carry no sign. -/
theorem splitSign_decimalDigits (n : Nat) :
    splitSign (decimalDigits n) = (false, decimalDigits n) := by
  obtain ⟨c, cs, h⟩ := List.exists_cons_of_ne_nil (decimalDigits_ne_nil n)
  rw [h]
  exact splitSign_of_digit (isDigit_of_mem_decimalDigits (n := n) (by rw [h]; simp)) cs

/-- A written integer is the strict form of itself. -/
theorem plainWhole?_decimal (n : Int) : plainWhole? (decimal n).toList = some n := by
  have digits (k : Nat) : decimalDigits k ≠ [] ∧ (decimalDigits k).all Char.isDigit :=
    ⟨decimalDigits_ne_nil k, List.all_eq_true.2 fun _ h => isDigit_of_mem_decimalDigits h⟩
  cases n with
  | ofNat k =>
    simp only [decimal, String.toList_ofList, plainWhole?, plainDigits?, splitSign_decimalDigits,
      if_pos (digits k), Option.map_some, withSign, digitsValue_decimalDigits]
    rfl
  | negSucc k =>
    simp only [decimal, String.toList_ofList, plainWhole?, plainDigits?, splitSign,
      if_pos (digits (k + 1)), Option.map_some, withSign, digitsValue_decimalDigits]
    rfl

end BenchSettings.Text
