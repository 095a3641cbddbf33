/-
BenchSettings.Proofs.Text.Classes — classes of characters, character by
character.

The tests for space and for digits compare code points. A class is easier to
recognise from the list of its characters, and since it ends somewhere, the two
can be compared one code point after the other (`iff_mem_of_below`).
-/
import BenchSettings.Text.Blank
import BenchSettings.Text.Digits

namespace BenchSettings.Text

/-- A test that no character from some bound on passes is compared with a list below that bound. -/
theorem iff_mem_of_below (test : Char → Bool) {chars : List Char} (bound : Nat)
    (below : ∀ c, test c = true → c.toNat < bound)
    (listed : ∀ n < bound, test (Char.ofNat n) = true → Char.ofNat n ∈ chars)
    (passes : chars.all test = true) {c : Char} : test c = true ↔ c ∈ chars := by
  refine ⟨fun passed => ?_, List.all_eq_true.1 passes c⟩
  simpa using listed c.toNat (below c passed) (by simpa using passed)

/-- The characters that may stand in front of a number. -/
def spaceChars : List Char := [' ', '\t', '\n', '\x0b', '\x0c', '\r']

theorem isSpace_iff_mem {c : Char} : isSpace c = true ↔ c ∈ spaceChars := by
  refine iff_mem_of_below isSpace 33 ?_ (by decide) (by decide)
  intro c space
  simp only [isSpace, Bool.or_eq_true, Bool.and_eq_true, beq_iff_eq, decide_eq_true_eq] at space
  rcases space with rfl | ⟨-, hi⟩
  · decide
  · have hi' : c.toNat ≤ 13 := hi
    omega

def digitChars : List Char := "0123456789".toList

theorem isDigit_iff_mem {c : Char} : c.isDigit = true ↔ c ∈ digitChars := by
  refine iff_mem_of_below Char.isDigit 58 ?_ (by decide) (by decide)
  intro c digit
  have := toNat_of_isDigit digit
  omega

end BenchSettings.Text
