/-
BenchSettings.Proofs.Number.Written — what can stand in the text of a number.

Numbers are written with digits, a point, signs and the letter of an exponent,
and three of them by words. So whoever gives a meaning to a word of its own,
as env files do to `true` and `false`, never finds it in the text of a number.
-/
import BenchSettings.Number.Shortest

namespace BenchSettings.Number

/-- The characters that numbers are written with, but for the words. -/
def isNumeral (c : Char) : Bool := c.isDigit || c == '.' || c == 'e' || c == '+' || c == '-'

theorem numerals_decimalDigits (n : Nat) : ∀ c ∈ Text.decimalDigits n, isNumeral c := by
  intro c mem
  simp [isNumeral, Text.isDigit_of_mem_decimalDigits mem]

theorem numerals_dropZeros {ds : List Char} (all : ∀ c ∈ ds, isNumeral c) :
    ∀ c ∈ dropZeros ds, isNumeral c := by
  intro c mem
  have kept : c ∈ ds.reverse := (List.dropWhile_sublist _).mem (List.mem_reverse.1 mem)
  exact all c (List.mem_reverse.1 kept)

theorem numerals_layout (digits : Nat) (place : Int) : ∀ c ∈ layout digits place, isNumeral c := by
  have significant := numerals_dropZeros (numerals_decimalDigits digits)
  have zeros (k : Nat) : ∀ c ∈ List.replicate k '0', isNumeral c := by
    intro c mem
    rw [List.eq_of_mem_replicate mem]
    rfl
  simp only [layout]
  generalize dropZeros (Text.decimalDigits digits) = ds at significant ⊢
  split
  · exact List.forall_mem_append.2 ⟨significant, zeros _⟩
  split
  · refine List.forall_mem_append.2 ⟨?_, List.forall_mem_cons.2 ⟨rfl, ?_⟩⟩
    · exact fun c mem => significant c (List.mem_of_mem_take mem)
    · exact fun c mem => significant c (List.mem_of_mem_drop mem)
  split
  · exact List.forall_mem_cons.2 ⟨rfl, List.forall_mem_cons.2
      ⟨rfl, List.forall_mem_append.2 ⟨zeros _, significant⟩⟩⟩
  · refine List.forall_mem_append.2 ⟨List.forall_mem_append.2 ⟨?_, ?_⟩, numerals_decimalDigits _⟩
    · cases ds with
      | nil => simp [isNumeral]
      | cons d more =>
        obtain ⟨first, rest⟩ := List.forall_mem_cons.1 significant
        cases more with
        | nil => exact significant
        | cons => exact List.forall_mem_cons.2 ⟨first, List.forall_mem_cons.2 ⟨rfl, rest⟩⟩
    · split <;> simp [isNumeral]

/-- A number is written in digits with a point, an exponent and signs, or it is one of three
words. -/
theorem text_cases (n : Number) :
    (∀ c ∈ n.text.toList, isNumeral c) ∨ n.text ∈ ["Infinity", "-Infinity", "NaN"] := by
  have signed (negative : Prop) [Decidable negative] (num den : Nat) : ∀ c ∈
      (String.ofList ((if negative then ['-'] else []) ++ positiveText num den)).toList,
      isNumeral c := by
    rw [String.toList_ofList]
    refine List.forall_mem_append.2 ⟨?_, numerals_layout _ _⟩
    split <;> simp [isNumeral]
  cases n with
  | integer n =>
    refine .inl ?_
    rw [text]
    split
    · cases n with
      | ofNat k =>
        rw [Text.decimal, String.toList_ofList]
        exact numerals_decimalDigits k
      | negSucc k =>
        rw [Text.decimal, String.toList_ofList]
        exact List.forall_mem_cons.2 ⟨rfl, numerals_decimalDigits (k + 1)⟩
    · exact signed _ _ _
  | fraction n k => exact .inl (signed _ _ _)
  | infinite negative => cases negative <;> exact .inr (by decide)
  | nan => exact .inr (by decide)

end BenchSettings.Number
