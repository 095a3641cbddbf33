/-
BenchSettings.Proofs.Fill.Views — memory filled from any bytes, for any count.

A pattern need not come from a text. It can be any bytes, also some of a larger
buffer (`View`), and the count can be any number. `fill_of_view` says what
filling gives then: a negative count is refused first, whatever the bytes are,
then bytes that are no whole elements, even if none of them is asked for; else
memory holds as many elements as the integer part of the count, and each is
read from four bytes of the view, over and over, or is the pseudo-random one if
the view is empty.

With a fraction for a count there is one step more than there are elements
(`le_stepCount`). It reads inside of the view like the others and writes
nothing. Steps do not know the count, so fewer elements are the first ones of
more.
-/
import BenchSettings.Proofs.Fill.Tiling
import BenchSettings.Proofs.Setting.NumberText

namespace BenchSettings

/-! ## 1. Views -/

/-- The four bytes of the buffer at a place of a view. -/
def View.four (v : View) (place : Nat) : List UInt8 :=
  (v.buffer.drop (v.start + place)).take elementSize

/-- An element that is read from a view has the bytes of the buffer that lie there. -/
theorem View.toBytes_spelled (v : View) {place : Nat} (h : place + elementSize ≤ v.length) :
    (Element.spelled v.byte place).toBytes = v.four place := by
  have room := v.inside
  rw [elementSize] at h
  have held (r : Nat) : v.byte (place + r) = (v.buffer.drop (v.start + place)).getD r 0 := by
    rw [byte, List.getD_eq_getElem?_getD, List.getD_eq_getElem?_getD, List.getElem?_drop,
      Nat.add_assoc]
  have first := held 0
  rw [Nat.add_zero] at first
  have long : 4 ≤ (v.buffer.drop (v.start + place)).length := by
    rw [List.length_drop]
    omega
  rw [Element.spelled, Element.toBytes_ofBytes, first, held 1, held 2, held 3, four, elementSize]
  generalize v.buffer.drop (v.start + place) = rest at long
  rcases rest with _ | ⟨b₀, _ | ⟨b₁, _ | ⟨b₂, _ | ⟨b₃, rest⟩⟩⟩⟩
  · simp at long
  · simp at long
  · simp at long
  · simp at long
  · rfl

/-! ## 2. Counts -/

/-- There is a step for every element that a count asks for. -/
theorem le_stepCount {count : Number} {n : Nat} (asked : count.truncate? = some (n : Int)) :
    n ≤ stepCount count := by
  cases count with
  | integer k =>
    have same : k = n := Option.some.inj asked
    rw [same, stepCount, Int.toNat_natCast]
  | fraction numerator halvings =>
    have quotient : numerator.tdiv (2 ^ halvings) = n := Option.some.inj asked
    have positive : 0 < (2 : Int) ^ halvings := Int.pow_pos (by decide)
    have below : numerator.tdiv (2 ^ halvings) ≤ numerator.fdiv (2 ^ halvings) + 1 := by
      rw [Int.fdiv_eq_ediv_of_nonneg _ positive.le, Int.tdiv_eq_ediv,
        Int.sign_eq_one_of_pos positive]
      split <;> omega
    rw [stepCount]
    omega
  | infinite negative => cases asked
  | nan => cases asked

namespace Memory

variable (m : Memory)

/-- What a count with a value asks for: its integer part, if that is not negative and memory has the
room. -/
theorem elementCount?_of_value {count : Number} {q : ℚ} (value : count.value? = some q) :
    m.elementCount? count =
      if 0 ≤ Number.towardZero q ∧ Number.towardZero q ≤ m.maxElements then
        some (Number.towardZero q).toNat
      else none := by
  have whole : count.truncate? = some (Number.towardZero q) := by
    rw [Number.truncate?_eq, value, Option.map_some]
  cases count with
  | integer n => simp only [elementCount?, whole]; rfl
  | fraction n k => simp only [elementCount?, whole]; rfl
  | infinite negative => cases value
  | nan => cases value

/-! ## 3. Steps -/

/-- The element of a step, which does not depend on the count. -/
def elementOf (v : View) (index : Nat) : Element :=
  if v.length = 0 then .ofNat (index % fillModulus + fillOffset)
  else m.keep (.spelled v.byte (4 * (index % (v.length / 4))))

theorem step_eq_elementOf {v : View} (whole : v.length % elementSize = 0) (index : Nat) :
    m.step v index = .ok (m.elementOf v index) := by
  rw [elementOf]
  split
  · rename_i empty
    exact m.step_of_empty empty index
  · rename_i nonempty
    exact (m.step_eq_read nonempty whole index).2

/-! ## 4. Filled memory -/

/-- Memory that is filled without a fault holds the elements of the first steps. -/
theorem fill_of_count {v : View} {count : Number} {q : ℚ} (value : count.value? = some q)
    (nonneg : 0 ≤ q) (fits : Number.towardZero q ≤ m.maxElements)
    (whole : v.length % elementSize = 0) :
    m.fill v count =
      .ok ((List.range (Number.towardZero q).toNat).map (m.elementOf v)) := by
  have asked : 0 ≤ Number.towardZero q := Number.towardZero_mono nonneg
  refine m.fill_eq_ok ?_ (le_stepCount ?_) whole (m.step_eq_elementOf whole)
  · rw [m.elementCount?_of_value value, if_pos ⟨asked, fits⟩]
  · rw [Number.truncate?_eq, value, Option.map_some, Int.toNat_of_nonneg asked]

/-- Bytes that are no whole elements are refused for every count that memory has the room for. -/
theorem fill_of_ragged {v : View} {count : Number} {q : ℚ} (value : count.value? = some q)
    (nonneg : 0 ≤ q) (fits : Number.towardZero q ≤ m.maxElements)
    (ragged : v.length % elementSize ≠ 0) :
    m.fill v count = .error (.raggedPattern v.length) := by
  rw [fill, m.elementCount?_of_value value, if_pos ⟨Number.towardZero_mono nonneg, fits⟩]
  simp only [ragged, ne_eq, not_false_eq_true, if_true]

/-- A negative count is refused whatever the bytes are. -/
theorem fill_of_negative (v : View) {n : Int} (negative : n < 0) :
    m.fill v (.integer n) = .error (.badCount (.integer n)) := by
  have none : m.elementCount? (.integer n) = none := by
    have refused : ¬0 ≤ n := by omega
    simp [elementCount?, Number.truncate?, refused]
  simp only [fill, none]

/-- What memory holds at a place, after it was filled from a view. -/
theorem elementOf_holds (v : View) (whole : v.length % elementSize = 0) (index : Nat) :
    (v.length = 0 → (m.elementOf v index).value? = some ((index % 383 + 31 : Nat) : ℚ)) ∧
    (v.length ≠ 0 → 4 * (index % (v.length / 4)) + 4 ≤ v.length ∧
      ∃ read : Element, read.toBytes = v.four (4 * (index % (v.length / 4))) ∧
        (m.elementOf v index).Same read) := by
  refine ⟨fun empty => ?_, fun nonempty => ?_⟩
  · rw [elementOf, if_pos empty]
    exact Element.value?_pseudoRandom index
  · have inside := (m.step_eq_read nonempty whole index).1
    refine ⟨inside, _, v.toBytes_spelled inside, ?_⟩
    rw [elementOf, if_neg nonempty]
    exact m.keep_same _

/-- Filling memory from a view, for every count with a value that memory has the room for. A
negative whole count is refused first, then bytes that are no whole elements. Else every step finds
its bytes inside of the view, there are as many elements as the integer part of the count says, and
each has the bytes at its place in the view, which starts over when it is used up, or the
pseudo-random number if the view is empty. A smaller count gives the first of these elements. -/
theorem fill_of_view (m : Memory) (v : View) {count : Number} {q : ℚ}
    (value : count.value? = some q) (fits : Number.towardZero q ≤ m.maxElements) :
    (count.isInteger = true → q < 0 → m.fill v count = .error (.badCount count)) ∧
    (0 ≤ q → v.length % 4 ≠ 0 → m.fill v count = .error (.raggedPattern v.length)) ∧
    (0 ≤ q → v.length % 4 = 0 →
      (∀ index < stepCount count, ∃ e, m.step v index = .ok e) ∧
      ∃ elements, m.fill v count = .ok elements ∧
        (elements.length : Int) = Number.towardZero q ∧
        (∀ (i : Nat) (e : Element), elements[i]? = some e →
          (v.length = 0 → e.value? = some ((i % 383 + 31 : Nat) : ℚ)) ∧
          (v.length ≠ 0 → 4 * (i % (v.length / 4)) + 4 ≤ v.length ∧
            ∃ read : Element, read.toBytes = v.four (4 * (i % (v.length / 4))) ∧ e.Same read)) ∧
        ∀ (other : Number) (p : ℚ), other.value? = some p → 0 ≤ p → p ≤ q →
          ∃ fewer, m.fill v other = .ok fewer ∧ fewer <+: elements) := by
  refine ⟨fun integer negative => ?negative, fun nonneg ragged => ?ragged,
    fun nonneg whole => ⟨fun index _ => ⟨_, m.step_eq_elementOf whole index⟩, _,
      m.fill_of_count value nonneg fits whole, ?length, fun i e held => ?held,
      fun other p otherValue otherNonneg le => ⟨_, m.fill_of_count otherValue otherNonneg
        ((Number.towardZero_mono le).trans fits) whole, ?first⟩⟩⟩
  case negative =>
    cases count with
    | integer n =>
      obtain rfl : (n : ℚ) = q := Option.some.inj value
      exact m.fill_of_negative _ (Int.cast_lt_zero.1 negative)
    | _ => cases integer
  case ragged => exact m.fill_of_ragged value nonneg fits ragged
  case length =>
    have asked : 0 ≤ Number.towardZero q := Number.towardZero_mono nonneg
    rw [List.length_map, List.length_range, Int.toNat_of_nonneg asked]
  case held =>
    rw [getElem?_map_range held]
    exact m.elementOf_holds v whole i
  case first =>
    have le : (Number.towardZero p).toNat ≤ (Number.towardZero q).toNat :=
      Int.toNat_le_toNat (Number.towardZero_mono le)
    rw [← Nat.min_eq_left le, ← List.take_range, List.map_take]
    exact List.take_prefix _ _

/-- Eight bytes in the middle of a buffer: a signalling "not a number", and 2 ^ -149. -/
def middleBytes : View := ⟨[9, 1, 0, 160, 127, 1, 0, 0, 0, 7, 7], 1, 8, by decide⟩

theorem fill_of_view_middle :
    (Number.fraction 5 1).value? = some (5 / 2) ∧
      Number.towardZero (5 / 2 : ℚ) ≤ usual.maxElements ∧
      (∀ index < 3, ∃ e, usual.step middleBytes index = .ok e) ∧
      ∃ elements, usual.fill middleBytes (.fraction 5 1) = .ok elements ∧
        elements.length = 2 ∧
        (∀ e, elements[1]? = some e →
          ∃ read : Element, read.toBytes = [1, 0, 0, 0] ∧ e.Same read) ∧
        ∃ fewer, usual.fill middleBytes 1 = .ok fewer ∧ fewer <+: elements := by
  have value : (Number.fraction 5 1).value? = some (5 / 2) := by norm_num [Number.value?]
  have two : Number.towardZero (5 / 2 : ℚ) = 2 := by norm_num [Number.towardZero]
  have fits : Number.towardZero (5 / 2 : ℚ) ≤ usual.maxElements := by
    rw [two]
    decide
  obtain ⟨-, -, filled⟩ := fill_of_view usual middleBytes value fits
  obtain ⟨steps, elements, ok, length, held, first⟩ := filled (by norm_num) (by decide)
  refine ⟨value, fits, steps, elements, ok, ?_, fun e second => ?_,
    first 1 1 (by norm_num [Number.value?]) (by norm_num) (by norm_num)⟩
  · rw [two] at length
    exact_mod_cast length
  · exact ((held 1 e second).2 (by decide)).2

end Memory

end BenchSettings
