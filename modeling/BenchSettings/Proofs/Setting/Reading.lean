/-
BenchSettings.Proofs.Setting.Reading — what a reading says about its text.

`Text.Plain` is the grammar of the texts that are whole numbers: an optional
sign and one or more digits, which denote an exact integer however many they
are. The reader decides it (`plainWhole?_eq_some_iff`).

A reading never looks at exact integers: it reads the digits as a double and
compares doubles. By the laws of `Proofs.Number.Whole` that comes to the same:
`lenient_eq` gives the number that is used, and `complaint?_eq_none_iff` says
that there is no complaint exactly when the trimmed text denotes that number.
A number in range that was written in decimal is read as itself, without a
complaint (`read_decimal`).
-/
import BenchSettings.Proofs.Number.Whole
import Mathlib.Data.List.TakeWhile
import Mathlib.Tactic.FinCases

namespace BenchSettings

/-! ## 1. The grammar of whole numbers -/

namespace Text

/-- The texts that are an optional sign and one or more digits, with the integers they denote. -/
inductive Plain : List Char → Int → Prop where
  | unsigned {ds : List Char} : ds ≠ [] → (∀ d ∈ ds, d.isDigit = true) → Plain ds (digitsValue ds)
  | plus {ds : List Char} :
      ds ≠ [] → (∀ d ∈ ds, d.isDigit = true) → Plain ('+' :: ds) (digitsValue ds)
  | minus {ds : List Char} :
      ds ≠ [] → (∀ d ∈ ds, d.isDigit = true) → Plain ('-' :: ds) (-(digitsValue ds : Int))

/-- A run of digits carries no sign. -/
theorem splitSign_digits {ds : List Char} (digits : ∀ d ∈ ds, d.isDigit = true) :
    splitSign ds = (false, ds) := by
  cases ds with
  | nil => rfl
  | cons d rest => exact splitSign_of_digit (digits d List.mem_cons_self) rest

theorem plainDigits?_eq_some_iff {cs ds : List Char} {negative : Bool} :
    plainDigits? cs = some (negative, ds) ↔
      splitSign cs = (negative, ds) ∧ ds ≠ [] ∧ ∀ d ∈ ds, d.isDigit = true := by
  unfold plainDigits?
  obtain ⟨sign, rest⟩ := splitSign cs
  simp only [List.all_eq_true]
  split
  · rename_i h
    simp only [Option.some.injEq, Prod.mk.injEq]
    constructor
    · rintro ⟨rfl, rfl⟩
      exact ⟨⟨rfl, rfl⟩, h⟩
    · exact fun same => same.1
  · rename_i h
    simp only [reduceCtorEq, Prod.mk.injEq, false_iff, not_and]
    rintro ⟨rfl, rfl⟩ nonempty digits
    exact h ⟨nonempty, digits⟩

theorem plainWhole?_eq_some_iff {cs : List Char} {n : Int} :
    plainWhole? cs = some n ↔ Plain cs n := by
  simp only [plainWhole?, Option.map_eq_some_iff, Prod.exists, plainDigits?_eq_some_iff]
  constructor
  · rintro ⟨negative, ds, ⟨split, nonempty, digits⟩, rfl⟩
    unfold splitSign at split
    split at split
    · cases split
      exact .minus nonempty digits
    · cases split
      exact .plus nonempty digits
    · cases split
      exact .unsigned nonempty digits
  · rintro (⟨nonempty, digits⟩ | ⟨nonempty, digits⟩ | ⟨nonempty, digits⟩)
    · exact ⟨false, _, ⟨splitSign_digits digits, nonempty, digits⟩, rfl⟩
    · exact ⟨false, _, ⟨rfl, nonempty, digits⟩, rfl⟩
    · exact ⟨true, _, ⟨rfl, nonempty, digits⟩, rfl⟩

end Text

/-! ## 2. The number that is used -/

/-- The lenient reading in exact integers. -/
theorem lenient_eq (text : String) :
    lenient text =
      saturate (Text.withSign (Text.splitSign (text.toList.dropWhile Text.isSpace)).1
        (Text.digitsValue
          ((Text.splitSign (text.toList.dropWhile Text.isSpace)).2.takeWhile Char.isDigit))) :=
  Number.saturated_ofDigits ..

/-- Of a number beyond the range only the sign is left. -/
theorem saturate_withSign_of_great (negative : Bool) {m n : Nat} (left : 2147483648 ≤ m)
    (right : 2147483648 ≤ n) :
    saturate (Text.withSign negative m) = saturate (Text.withSign negative n) := by
  cases negative <;>
    simp only [saturate, minWhole, maxWhole, Text.withSign, if_true, Bool.false_eq_true,
      if_false] <;>
    omega

theorem lenient_mem (text : String) : minWhole ≤ lenient text ∧ lenient text ≤ maxWhole :=
  saturated_mem _

/-! ## 3. When there is a complaint -/

/-- No complaint says that the trimmed text denotes the number that was used. -/
theorem complaint?_eq_none_iff {text : String} {value : Int} (lo : minWhole ≤ value)
    (hi : value ≤ maxWhole) :
    complaint? text value = none ↔ Text.Plain (Text.trim text) value := by
  rw [← Text.plainWhole?_eq_some_iff]
  unfold complaint? Text.plainWhole?
  cases Text.plainDigits? (Text.trim text) with
  | none => simp
  | some parts =>
    obtain ⟨negative, ds⟩ := parts
    simp [Number.ofDigits_eq_integer_iff negative ds lo hi]

/-! ## 4. Numbers in decimal -/

namespace Text

theorem isBlank_of_isDigit {c : Char} (h : c.isDigit = true) : isBlank c = false := by
  obtain ⟨lo, hi⟩ := toNat_of_isDigit h
  simp only [isBlank, blankRanges, List.any_eq_false, Bool.and_eq_true, decide_eq_true_eq]
  intro range mem
  fin_cases mem <;> omega

theorem isSpace_of_isDigit {c : Char} (h : c.isDigit = true) : isSpace c = false :=
  isSpace_of_not_isBlank (isBlank_of_isDigit h)

/-- No character of a decimal text is blank. -/
theorem isBlank_of_mem_decimal {n : Int} {c : Char} (h : c ∈ (decimal n).toList) :
    isBlank c = false := by
  cases n with
  | ofNat k =>
    simp only [decimal, String.toList_ofList] at h
    exact isBlank_of_isDigit (isDigit_of_mem_decimalDigits h)
  | negSucc k =>
    simp only [decimal, String.toList_ofList, List.mem_cons] at h
    rcases h with rfl | digit
    · decide
    · exact isBlank_of_isDigit (isDigit_of_mem_decimalDigits digit)

theorem trim_decimal (n : Int) : trim (decimal n) = (decimal n).toList :=
  trimBoth_eq_self
    (fun _ first => isBlank_of_mem_decimal (List.mem_of_mem_head? first))
    (fun _ last => isBlank_of_mem_decimal (List.mem_of_getLast? last))

theorem dropWhile_isSpace_decimal (n : Int) :
    (decimal n).toList.dropWhile isSpace = (decimal n).toList :=
  dropWhile_of_head? fun _ first =>
    isSpace_of_not_isBlank (isBlank_of_mem_decimal (List.mem_of_mem_head? first))

theorem takeWhile_isDigit_decimalDigits (n : Nat) :
    (decimalDigits n).takeWhile Char.isDigit = decimalDigits n :=
  List.takeWhile_eq_self_iff.2 fun _ => isDigit_of_mem_decimalDigits

end Text

/-- A number is read from its decimal text, or the end of the range that it lies beyond. -/
theorem lenient_decimal_eq (n : Int) : lenient (Text.decimal n) = saturate n := by
  have exact : Text.withSign (Text.splitSign (Text.decimal n).toList).1
      (Text.digitsValue ((Text.splitSign (Text.decimal n).toList).2.takeWhile Char.isDigit)) =
        n := by
    cases n with
    | ofNat k =>
      simp only [Text.decimal, String.toList_ofList, Text.splitSign_decimalDigits,
        Text.takeWhile_isDigit_decimalDigits, Text.digitsValue_decimalDigits]
      rfl
    | negSucc k =>
      simp only [Text.decimal, String.toList_ofList, Text.splitSign,
        Text.takeWhile_isDigit_decimalDigits, Text.digitsValue_decimalDigits]
      rfl
  rw [lenient_eq, Text.dropWhile_isSpace_decimal, exact]

theorem lenient_decimal {n : Int} (lo : minWhole ≤ n) (hi : n ≤ maxWhole) :
    lenient (Text.decimal n) = n := by
  rw [lenient_decimal_eq, saturate_eq_self lo hi]

/-- And without a complaint. -/
theorem read_decimal {env : Environment} {name : String} {n : Int} (lo : minWhole ≤ n)
    (hi : n ≤ maxWhole) (set : env.get? name = some (Text.decimal n)) (default : Int) :
    env.read name default = ⟨n, none⟩ := by
  have plain : Text.Plain (Text.trim (Text.decimal n)) n := by
    rw [Text.trim_decimal, ← Text.plainWhole?_eq_some_iff, Text.plainWhole?_decimal]
  have silent : complaint? (Text.decimal n) n = none := (complaint?_eq_none_iff lo hi).2 plain
  rw [Environment.read_of_set set, lenient_decimal lo hi, silent, Option.map_none]

end BenchSettings
