/-
BenchSettings.Proofs.Setting.Lenient — the lenient number of any text.

A text has four parts: space, a sign, digits, and the rest. Each of the first
three goes as far as it can and may be empty, so every text has them in one way
only (`Parts.of_ofText`, `Parts.Of.eq_ofText`). The lenient number is the
integer of the sign and the digits, exact however many there are, clamped to 32
bits; of the rest it knows nothing.

Integers have one zero and doubles have two. `lenientSigned` is the reading with
the sign of a double beside its size, one step after the other, and
`lenientSigned_eq` says that it never comes to the zero with a minus, so an
integer is all there is to say of the result.
-/
import BenchSettings.Proofs.Setting.Reading
import BenchSettings.Proofs.Text.Classes

namespace BenchSettings

namespace Text

/-! ## 1. The parts of a text -/

/-- What a number is read from: space, a sign, digits, and what is behind them. -/
structure Parts where
  spaces : List Char
  sign : List Char
  digits : List Char
  rest : List Char

namespace Parts

/-- The parts of a text, each of which goes as far as it can. -/
structure Of (p : Parts) (cs : List Char) : Prop where
  whole : p.spaces ++ (p.sign ++ (p.digits ++ p.rest)) = cs
  spaces : ∀ c ∈ p.spaces, c ∈ spaceChars
  allSpaces : ∀ c ∈ (p.sign ++ (p.digits ++ p.rest)).head?, c ∉ spaceChars
  sign : p.sign = [] ∨ p.sign = ['+'] ∨ p.sign = ['-']
  signTaken : p.sign = [] → ∀ c ∈ (p.digits ++ p.rest).head?, c ≠ '+' ∧ c ≠ '-'
  digits : ∀ c ∈ p.digits, c ∈ digitChars
  allDigits : ∀ c ∈ p.rest.head?, c ∉ digitChars

/-- The integer of the sign and the digits, which is zero without digits. -/
def number (p : Parts) : Int :=
  if p.sign = ['-'] then -(digitsValue p.digits : Int) else digitsValue p.digits

section

variable {p : Parts} {cs : List Char} (h : p.Of cs)

include h

theorem Of.takeWhile_isSpace : cs.takeWhile isSpace = p.spaces := by
  rw [← h.whole]
  refine takeWhile_append_of_head? (fun c mem => isSpace_iff_mem.2 (h.spaces c mem)) ?_
  intro c first
  rw [← Bool.not_eq_true, isSpace_iff_mem]
  exact h.allSpaces c first

theorem Of.dropWhile_isSpace : cs.dropWhile isSpace = p.sign ++ (p.digits ++ p.rest) := by
  have parts := List.takeWhile_append_dropWhile (p := isSpace) (l := cs)
  rw [h.takeWhile_isSpace, ← h.whole] at parts
  rw [← h.whole]
  exact List.append_cancel_left parts

theorem Of.splitSign_eq : splitSign (p.sign ++ (p.digits ++ p.rest)) =
    (decide (p.sign = ['-']), p.digits ++ p.rest) := by
  rcases h.sign with none | plus | minus
  · have other := h.signTaken none
    rw [none, List.nil_append]
    unfold splitSign
    split
    · rename_i rest same
      exact absurd rfl (other '-' (by rw [same]; rfl)).2
    · rename_i rest same
      exact absurd rfl (other '+' (by rw [same]; rfl)).1
    · rfl
  · rw [plus]
    rfl
  · rw [minus]
    rfl

theorem Of.takeWhile_isDigit : (p.digits ++ p.rest).takeWhile Char.isDigit = p.digits := by
  refine takeWhile_append_of_head? (fun c mem => isDigit_iff_mem.2 (h.digits c mem)) ?_
  intro c first
  rw [← Bool.not_eq_true, isDigit_iff_mem]
  exact h.allDigits c first

/-- A text has its parts in one way only. -/
theorem Of.unique {q : Parts} (h' : q.Of cs) : q = p := by
  have spaces : q.spaces = p.spaces := h'.takeWhile_isSpace.symm.trans h.takeWhile_isSpace
  have behind : q.sign ++ (q.digits ++ q.rest) = p.sign ++ (p.digits ++ p.rest) :=
    h'.dropWhile_isSpace.symm.trans h.dropWhile_isSpace
  have unsigned : q.digits ++ q.rest = p.digits ++ p.rest := by
    have split := h'.splitSign_eq
    rw [behind, h.splitSign_eq] at split
    exact (congrArg Prod.snd split).symm
  have digits : q.digits = p.digits := by
    rw [← h'.takeWhile_isDigit, unsigned, h.takeWhile_isDigit]
  have sign : q.sign = p.sign := by
    rw [unsigned] at behind
    exact List.append_cancel_right behind
  rw [digits] at unsigned
  have rest : q.rest = p.rest := List.append_cancel_left unsigned
  obtain ⟨_, _, _, _⟩ := q
  obtain ⟨_, _, _, _⟩ := p
  simp only at spaces sign digits rest
  rw [spaces, sign, digits, rest]

end

theorem not_of_mem_head?_dropWhile {q : Char → Bool} {cs : List Char} {c : Char}
    (first : c ∈ (cs.dropWhile q).head?) : q c = false := by
  have := List.head?_dropWhile_not q cs
  rw [Option.mem_def.1 first] at this
  simpa using this

/-- A sign is taken if there is one. -/
theorem exists_sign (cs : List Char) : ∃ sign rest, sign ++ rest = cs ∧
    (sign = [] ∨ sign = ['+'] ∨ sign = ['-']) ∧
    (sign = [] → ∀ c ∈ rest.head?, c ≠ '+' ∧ c ≠ '-') := by
  match cs with
  | '+' :: rest => exact ⟨['+'], rest, rfl, by simp, by simp⟩
  | '-' :: rest => exact ⟨['-'], rest, rfl, by simp, by simp⟩
  | [] => exact ⟨[], [], rfl, by simp, by simp⟩
  | c :: rest =>
    by_cases plus : c = '+'
    · exact ⟨['+'], rest, by rw [plus]; rfl, by simp, by simp⟩
    · by_cases minus : c = '-'
      · exact ⟨['-'], rest, by rw [minus]; rfl, by simp, by simp⟩
      · exact ⟨[], c :: rest, rfl, by simp, by simp [plus, minus]⟩

theorem exists_of (cs : List Char) : ∃ p : Parts, p.Of cs := by
  obtain ⟨sign, unsigned, behind, signs, taken⟩ := exists_sign (cs.dropWhile isSpace)
  refine ⟨⟨cs.takeWhile isSpace, sign, unsigned.takeWhile Char.isDigit,
    unsigned.dropWhile Char.isDigit⟩, ?_, ?_, ?_, signs, ?_, ?_, ?_⟩
  · simp only [List.takeWhile_append_dropWhile, behind]
  · exact fun c mem => isSpace_iff_mem.1 (List.mem_takeWhile_imp mem)
  · intro c first
    simp only [List.takeWhile_append_dropWhile, behind] at first
    simp [← isSpace_iff_mem, not_of_mem_head?_dropWhile first]
  · simpa only [List.takeWhile_append_dropWhile] using taken
  · exact fun c mem => isDigit_iff_mem.1 (List.mem_takeWhile_imp mem)
  · intro c first
    simp [← isDigit_iff_mem, not_of_mem_head?_dropWhile first]

end Parts

end Text

/-! ## 2. The number that is read -/

/-- Of the parts of a text, the sign and the digits are read. -/
theorem lenient_of_parts {text : String} {p : Text.Parts} (h : p.Of text.toList) :
    lenient text = saturate p.number := by
  rw [lenient_eq, h.dropWhile_isSpace, h.splitSign_eq, h.takeWhile_isDigit, Text.Parts.number,
    Text.withSign]
  simp only [decide_eq_true_eq]

/-! ## 3. The sign of zero -/

/-- A number as a double has it, with the sign beside the size. Zero has a sign as well. -/
structure Signed where
  negative : Bool
  size : Number
  deriving DecidableEq, Repr

namespace Signed

/-- An integer as a double has it, with the zero that has no minus. -/
def ofInt (n : Int) : Signed := ⟨decide (n < 0), .integer n.natAbs⟩

/-- The number, or the least one if it lies below. -/
def raised (x : Signed) : Signed :=
  if x.negative && x.size.exceeds minWhole.natAbs then ofInt minWhole else x

/-- The number, or the greatest one if it lies above. -/
def lowered (x : Signed) : Signed :=
  if !x.negative && x.size.exceeds maxWhole then ofInt maxWhole else x

theorem mk_integer (negative : Bool) {n : Nat} (pos : n ≠ 0) :
    mk negative (.integer n) = ofInt (Text.withSign negative n) := by
  cases negative with
  | true =>
    have minus : -(n : Int) < 0 := by omega
    rw [ofInt, Text.withSign, if_pos rfl, decide_eq_true minus, Int.natAbs_neg, Int.natAbs_natCast]
  | false =>
    have plus : ¬(n : Int) < 0 := by omega
    rw [ofInt, Text.withSign, if_neg Bool.false_ne_true, decide_eq_false plus, Int.natAbs_natCast]

theorem exceeds_integer (n bound : Int) :
    (Number.integer n).exceeds bound = decide (bound < n) := rfl

theorem raised_ofInt (n : Int) : (ofInt n).raised = ofInt (max minWhole n) := by
  by_cases below : n < minWhole
  · have least : max minWhole n = minWhole := Int.max_eq_left (Int.le_of_lt below)
    simp only [minWhole] at below
    rw [least, raised, if_pos]
    simp only [ofInt, exceeds_integer, minWhole, Bool.and_eq_true, decide_eq_true_eq]
    omega
  · have same : max minWhole n = n := Int.max_eq_right (Int.not_lt.1 below)
    simp only [minWhole] at below
    rw [same, raised, if_neg]
    simp only [ofInt, exceeds_integer, minWhole, Bool.and_eq_true, decide_eq_true_eq]
    omega

theorem lowered_ofInt (n : Int) : (ofInt n).lowered = ofInt (min maxWhole n) := by
  by_cases above : maxWhole < n
  · have greatest : min maxWhole n = maxWhole := Int.min_eq_left (Int.le_of_lt above)
    simp only [maxWhole] at above
    rw [greatest, lowered, if_pos]
    simp only [ofInt, exceeds_integer, maxWhole, Bool.and_eq_true, Bool.not_eq_true',
      decide_eq_true_eq, decide_eq_false_iff_not]
    omega
  · have same : min maxWhole n = n := Int.min_eq_right (Int.not_lt.1 above)
    simp only [maxWhole] at above
    rw [same, lowered, if_neg]
    simp only [ofInt, exceeds_integer, maxWhole, Bool.and_eq_true, Bool.not_eq_true',
      decide_eq_true_eq, decide_eq_false_iff_not]
    omega

/-- A whole number is clamped as an integer is. -/
theorem lowered_raised_integer (negative : Bool) {n : Nat} (pos : n ≠ 0) :
    (mk negative (.integer n)).raised.lowered = ofInt (saturate (Text.withSign negative n)) := by
  rw [mk_integer negative pos, raised_ofInt, lowered_ofInt, saturate]

end Signed

/-- The lenient reading, in doubles throughout: the size of the digits comes first, a size of zero
is given back without a sign, and any other size is given the sign and clamped. -/
def lenientSigned (text : String) : Signed :=
  let (negative, rest) := Text.splitSign (text.toList.dropWhile Text.isSpace)
  let size := Number.ofDigits false (rest.takeWhile Char.isDigit)
  if size = .integer 0 then .ofInt 0 else (Signed.mk negative size).raised.lowered

/-- What the step for a size of zero is for: clamping leaves the sign of such a number alone. -/
example : (Signed.mk true 0).raised.lowered ≠ .ofInt 0 := by decide

/-- The reading is an integer, and a zero among them has no minus. -/
theorem lenientSigned_eq (text : String) : lenientSigned text = .ofInt (lenient text) := by
  rw [lenient_eq, lenientSigned]
  obtain ⟨negative, rest⟩ := Text.splitSign (text.toList.dropWhile Text.isSpace)
  simp only
  generalize rest.takeWhile Char.isDigit = ds
  have beyond : 2 ^ 31 ≤ 2 ^ Number.precision := Nat.pow_le_pow_right (by decide) (by decide)
  obtain ⟨_, exact⟩ | ⟨great, infinite | ⟨m, hm, rounded⟩⟩ := Number.ofDigits_cases false ds
  · have size : Number.ofDigits false ds = .integer (Text.digitsValue ds) := exact
    rw [size]
    by_cases zero : Text.digitsValue ds = 0
    · rw [zero]
      cases negative <;> rfl
    · rw [if_neg (by simp [zero]), Signed.lowered_raised_integer negative zero]
  · rw [infinite, if_neg (by decide), saturate_withSign_of_great negative (beyond.trans great) beyond]
    cases negative <;> decide
  · have size : Number.ofDigits false ds = .integer m := rounded
    have pos : m ≠ 0 := by
      rintro rfl
      exact absurd hm (by decide)
    rw [size, if_neg (by simp [pos]), Signed.lowered_raised_integer negative pos,
      saturate_withSign_of_great negative (beyond.trans hm) (beyond.trans great)]

/-! ## 4. Every text decided -/

/-- The lenient number of a text is the integer of its sign and its digits, clamped to 32 bits, and 0
if there are no digits. It is exact for digits that no double can hold. What is behind the digits
makes no difference, and as a double the result is the integer, which is no zero with a minus. -/
theorem lenient_decided (text : String) :
    ∃ p : Text.Parts, p.Of text.toList ∧ (∀ q : Text.Parts, q.Of text.toList → q = p) ∧
      lenient text = max (-2147483648) (min 2147483647 p.number) ∧
      (p.digits = [] → lenient text = 0) ∧
      lenientSigned text = ⟨decide (lenient text < 0), .integer (lenient text).natAbs⟩ ∧
      ∀ (other : String) (rest : List Char),
        Text.Parts.Of { p with rest := rest } other.toList → lenient other = lenient text := by
  obtain ⟨p, parts⟩ := Text.Parts.exists_of text.toList
  have value := lenient_of_parts parts
  refine ⟨p, parts, fun q parts' => parts.unique parts', ?clamped, ?none, lenientSigned_eq text,
    fun other rest parts' => ?other⟩
  case clamped =>
    rw [value, saturate, minWhole, maxWhole]
    omega
  case none =>
    intro none
    rw [value, Text.Parts.number, none]
    split <;> rfl
  case other =>
    rw [value, lenient_of_parts parts']
    rfl

end BenchSettings
