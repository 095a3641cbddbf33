/-
BenchSettings.Proofs.Fill.Tiling — memory filled from a pattern repeats the
pattern without a seam.

The bytes that a text spells reach memory in three steps. Decoding repeats
them one, two or four times, so that they are whole elements; filling starts
over after the last whole element; and each element is read from four bytes,
the lowest first. Every step is periodic, and this module shows that the
periods fit: what lies in memory is the endless repetition of the spelled
bytes (`repeated`), cut off after the last element.

`fill_of_load` is the statement for every environment that loads. A machine
may keep "not a number" under other bits than it read, so elements of that
kind are compared as such only (`Element.Same`).
-/
import BenchSettings.Fill.Element
import BenchSettings.Loading

namespace BenchSettings

/-! ## 1. Bytes over and over -/

/-- The bytes over and over: the byte at a place of their endless repetition. -/
def repeated (bytes : List UInt8) (place : Nat) : UInt8 := bytes.getD (place % bytes.length) 0

theorem getElem?_replicate_flatten {α : Type} (xs : List α) {copies i : Nat}
    (h : i < copies * xs.length) :
    (List.replicate copies xs).flatten[i]? = xs[i % xs.length]? := by
  induction copies generalizing i with
  | zero => simp at h
  | succ copies ih =>
    rw [List.replicate_succ, List.flatten_cons]
    by_cases first : i < xs.length
    · rw [List.getElem?_append_left first, Nat.mod_eq_of_lt first]
    · have le : xs.length ≤ i := Nat.not_lt.1 first
      have rest : i - xs.length < copies * xs.length := by
        rw [Nat.add_mul] at h
        omega
      rw [List.getElem?_append_right le, ih rest, ← Nat.mod_eq_sub_mod le]

/-- Repeating copies of some bytes is repeating the bytes. -/
theorem repeated_copies (bytes : List UInt8) {copies : Nat} (pos : 0 < copies) :
    repeated (List.replicate copies bytes).flatten = repeated bytes := by
  funext place
  rcases Nat.eq_zero_or_pos bytes.length with none | filled
  · rw [List.length_eq_zero_iff.1 none]
    simp
  · have inside : place % (copies * bytes.length) < copies * bytes.length :=
      Nat.mod_lt _ (Nat.mul_pos pos filled)
    rw [repeated, repeated, FillPattern.length_replicate_flatten, List.getD_eq_getElem?_getD,
      List.getD_eq_getElem?_getD, getElem?_replicate_flatten bytes inside,
      Nat.mod_mul_left_mod]

/-! ## 2. Elements read from bytes -/

namespace Element

/-- The same element, where all that are not a number count as one. -/
def Same (a b : Element) : Prop := a = b ∨ (a.isNaN = true ∧ b.isNaN = true)

theorem getElem?_toBytes_spelled (byte : Nat → UInt8) (place : Nat) {r : Nat} (h : r < 4) :
    (spelled byte place).toBytes[r]? = some (byte (place + r)) := by
  rw [spelled, toBytes_ofBytes]
  match r, h with
  | 0, _ => rfl
  | 1, _ => rfl
  | 2, _ => rfl
  | 3, _ => rfl

/-- Of elements laid end to end, each has four bytes. -/
theorem getElem?_flatMap_toBytes (elements : List Element) (place : Nat) :
    (elements.flatMap toBytes)[place]? =
      elements[place / 4]?.bind fun e => e.toBytes[place % 4]? := by
  induction elements generalizing place with
  | nil => simp
  | cons e rest ih =>
    have four : e.toBytes.length = 4 := rfl
    rw [List.flatMap_cons]
    by_cases first : place < 4
    · rw [List.getElem?_append_left (by omega), show place / 4 = 0 by omega,
        Nat.mod_eq_of_lt first]
      rfl
    · rw [List.getElem?_append_right (by omega), ih, four,
        show place / 4 = (place - 4) / 4 + 1 by omega,
        show (place - 4) % 4 = place % 4 by omega]
      rfl

/-- The parts of a small whole number: no sign, the exponent of its leading bit, and behind that bit
the number itself, shifted up to 24 bits. -/
theorem parts_ofNat {n : Nat} (pos : n ≠ 0) (h : n < 2 ^ (fractionWidth + 1)) :
    (ofNat n).bits.toNat / 2 ^ (fractionWidth + exponentWidth) = 0 ∧
      (ofNat n).exponentBits = 127 + Nat.log2 n ∧
      2 ^ fractionWidth + (ofNat n).fractionBits = n * 2 ^ (23 - Nat.log2 n) := by
  have low : 2 ^ Nat.log2 n ≤ n := Nat.log2_self_le pos
  have top : n < 2 ^ (Nat.log2 n + 1) := Nat.lt_log2_self
  have lead : Nat.log2 n < 24 := (Nat.log2_lt pos).2 h
  obtain ⟨free, hfree⟩ : ∃ free, Nat.log2 n + free = 23 := ⟨23 - Nat.log2 n, by omega⟩
  have room : 23 - Nat.log2 n = free := by omega
  have shifted : (n - 2 ^ Nat.log2 n) * 2 ^ free + 2 ^ fractionWidth = n * 2 ^ free := by
    rw [fractionWidth, ← hfree, Nat.pow_add, ← Nat.add_mul, Nat.sub_add_cancel low]
  have full : n * 2 ^ free < 2 ^ (fractionWidth + 1) :=
    calc n * 2 ^ free < 2 ^ (Nat.log2 n + 1) * 2 ^ free :=
          Nat.mul_lt_mul_of_pos_right top (Nat.two_pow_pos _)
      _ = 2 ^ (fractionWidth + 1) := by rw [← Nat.pow_add, fractionWidth]; congr 1; omega
  have bits : (ofNat n).bits.toNat =
      (127 + Nat.log2 n) * 2 ^ fractionWidth + (n - 2 ^ Nat.log2 n) * 2 ^ free := by
    simp only [fractionWidth] at shifted full
    simp only [ofNat, pos, if_false, bias, fractionWidth, UInt32.toNat_ofNat', room]
    omega
  simp only [exponentBits, fractionBits, bits, fractionWidth, exponentWidth, room] at *
  omega

theorem length_flatMap_toBytes (elements : List Element) :
    (elements.flatMap toBytes).length = 4 * elements.length := by
  induction elements with
  | nil => rfl
  | cons e rest ih =>
    have four : e.toBytes.length = 4 := rfl
    rw [List.flatMap_cons, List.length_append, ih, four, List.length_cons]
    omega

/-- A small whole number is kept exactly. -/
theorem value?_ofNat {n : Nat} (h : n < 2 ^ (fractionWidth + 1)) :
    (ofNat n).value? = some (n : Rat) := by
  by_cases zero : n = 0
  · subst zero
    rfl
  · obtain ⟨positive, exponent, fraction⟩ := parts_ofNat zero h
    have lead : Nat.log2 n < 24 := (Nat.log2_lt zero).2 h
    have value : n * 2 ^ (23 - Nat.log2 n) * 2 ^ (127 + Nat.log2 n) =
        n * 2 ^ (bias + fractionWidth) := by
      rw [Nat.mul_assoc, ← Nat.pow_add, bias, fractionWidth]
      congr 2
      omega
    have finite : ¬127 + Nat.log2 n = 255 := by omega
    have normal : ¬127 + Nat.log2 n = 0 := by omega
    simp only [value?, positive, exponent, fraction, value, finite, normal, if_true, if_false,
      Int.one_mul, Int.natCast_mul]
    have scale : 2 ^ (bias + fractionWidth) ≠ 0 := Nat.ne_of_gt (Nat.two_pow_pos _)
    generalize 2 ^ (bias + fractionWidth) = a at scale
    have whole : mkRat ((n : Int) * a) a = mkRat n 1 := by
      simpa using Rat.mkRat_mul_right (n := (n : Int)) (d := 1) scale
    rw [whole]
    exact congrArg some (Rat.mkRat_self (n : Rat))

theorem value?_pseudoRandom (i : Nat) :
    (ofNat (i % fillModulus + fillOffset)).value? = some ((i % 383 + 31 : Nat) : Rat) := by
  have small : i % fillModulus < fillModulus := Nat.mod_lt _ (by decide)
  refine value?_ofNat ?_
  simp only [fillModulus, fillOffset, fractionWidth] at *
  omega

end Element

/-! ## 3. Filled memory -/

namespace Memory

variable (m : Memory)

theorem keep_same (e : Element) : (m.keep e).Same e := by
  unfold keep
  split
  · rename_i nan
    exact .inr ⟨m.isNaN_keepNaN e nan, nan⟩
  · exact .inl rfl

/-- A step reads the four bytes at the place of its element, which are there. -/
theorem step_eq_read {v : View} (nonempty : v.length ≠ 0) (whole : v.length % elementSize = 0)
    (index : Nat) :
    4 * (index % (v.length / 4)) + 4 ≤ v.length ∧
      m.step v index = .ok (m.keep (.spelled v.byte (4 * (index % (v.length / 4))))) := by
  rw [elementSize] at whole
  have units : index % (v.length / 4) < v.length / 4 := Nat.mod_lt _ (by omega)
  have inside : 4 * (index % (v.length / 4)) + 4 ≤ v.length := by omega
  refine ⟨inside, ?_⟩
  rw [step, if_neg nonempty, elementSize, Nat.mul_comm _ 4, View.read, elementSize, if_pos inside]
  rfl

/-- Starting over after the last element of a pattern is reading its endless repetition on. -/
theorem step_eq_ok {pattern : List UInt8} (nonempty : 0 < pattern.length)
    (whole : pattern.length % elementSize = 0) (index : Nat) :
    m.step (.whole pattern) index = .ok (m.keep (.spelled (repeated pattern) (4 * index))) := by
  obtain ⟨units, hunits⟩ : ∃ units, pattern.length = 4 * units :=
    ⟨pattern.length / 4, by rw [elementSize] at whole; omega⟩
  have count : pattern.length / 4 = units := by omega
  have place {r : Nat} (h : r < 4) :
      repeated pattern (4 * index + r) = (View.whole pattern).byte (4 * (index % units) + r) := by
    rw [repeated, hunits, Nat.mod_mul, Nat.mul_add_mod, Nat.mod_eq_of_lt h,
      Nat.mul_add_div (by decide), Nat.div_eq_of_lt h, Nat.add_zero, View.byte, View.whole,
      Nat.zero_add]
    congr 1
    omega
  have same : Element.spelled (View.whole pattern).byte (4 * (index % units)) =
      .spelled (repeated pattern) (4 * index) := by
    simp only [Element.spelled, place (r := 1) (by decide), place (r := 2) (by decide),
      place (r := 3) (by decide)]
    rw [← Nat.add_zero (4 * index), place (r := 0) (by decide)]
    rfl
  have read := (m.step_eq_read (v := .whole pattern) (Nat.ne_of_gt nonempty) whole index).2
  rw [read, View.whole, count, ← View.whole, same]

/-- Without bytes, a step gives the pseudo-random whole number of its index. -/
theorem step_of_empty {v : View} (empty : v.length = 0) (index : Nat) :
    m.step v index = .ok (Element.ofNat (index % fillModulus + fillOffset)) := by
  have value : (pseudoRandom index).toNat = index % fillModulus + fillOffset := rfl
  rw [step, if_pos empty, value]

/-- Memory that is filled without a fault holds the elements of the first steps, as many as are
asked for. -/
theorem fill_eq_ok {v : View} {count : Number} {n : Nat} {element : Nat → Element}
    (asked : m.elementCount? count = some n) (enough : n ≤ stepCount count)
    (whole : v.length % elementSize = 0) (steps : ∀ index, m.step v index = .ok (element index)) :
    m.fill v count = .ok ((List.range n).map element) := by
  have written : (List.range (stepCount count)).mapM (m.step v) =
      (.ok ((List.range (stepCount count)).map element) : Except FillError (List Element)) := by
    rw [funext steps]
    exact List.mapM_pure
  have kept : ((List.range (stepCount count)).map element).take n =
      (List.range n).map element := by
    rw [← List.map_take, List.take_range, Nat.min_eq_left enough]
  simp only [fill, asked, whole, ne_eq, not_true_eq_false, if_false, written]
  exact congrArg Except.ok kept

theorem elementCount?_natCast {n : Nat} (fits : n ≤ m.maxElements) :
    m.elementCount? (.integer n) = some n := by
  simp [elementCount?, Number.truncate?, fits]

/-- Without a pattern, memory holds the pseudo-random whole numbers. -/
theorem fill_nil {n : Nat} (fits : n ≤ m.maxElements) :
    m.fill (.whole []) (.integer n) =
      .ok ((List.range n).map fun i => Element.ofNat (i % fillModulus + fillOffset)) :=
  m.fill_eq_ok (m.elementCount?_natCast fits) (Nat.le_refl n) (Nat.zero_mod _)
    (m.step_of_empty rfl)

/-- With one, it holds what the endless repetition of the pattern spells. -/
theorem fill_pattern {pattern : List UInt8} {n : Nat} (fits : n ≤ m.maxElements)
    (nonempty : 0 < pattern.length) (whole : pattern.length % elementSize = 0) :
    m.fill (.whole pattern) (.integer n) =
      .ok ((List.range n).map fun i => m.keep (.spelled (repeated pattern) (4 * i))) :=
  m.fill_eq_ok (m.elementCount?_natCast fits) (Nat.le_refl n) whole (m.step_eq_ok nonempty whole)

end Memory

/-! ## 4. Pairs of digits -/

namespace FillPattern

/-- The byte that a pair of hex digits in a text spells, by its number. -/
def pairByte? (units : List Nat) (k : Nat) : Option UInt8 := do
  let high ← units[2 * k]? >>= Text.Hex.digit?
  let low ← units[2 * k + 1]? >>= Text.Hex.digit?
  return UInt8.ofNat (16 * high + low)

/-- Decoded bytes are those that the pairs spell. -/
theorem getElem?_of_decodePairs {units : List Nat} {bytes : List UInt8}
    (h : decodePairs units = .ok bytes) (k : Nat) : bytes[k]? = pairByte? units k := by
  induction units using decodePairs.induct generalizing bytes k with
  | case1 =>
    cases h
    rfl
  | case2 => cases h
  | case3 high low rest ih =>
    obtain ⟨hi, lo, more, hhigh, hlow, hmore, rfl⟩ := decodePairs_cons_eq_ok_iff.1 h
    cases k with
    | zero => simp [pairByte?, hhigh, hlow]
    | succ k =>
      have skip (r : Nat) : (high :: low :: rest)[2 * (k + 1) + r]? = rest[2 * k + r]? := by
        rw [show 2 * (k + 1) + r = 2 * k + r + 2 by omega]
        rfl
      rw [List.getElem?_cons_succ, ih hmore k]
      simp only [pairByte?, skip 1]
      rw [← Nat.add_zero (2 * (k + 1)), skip 0]
      rfl

/-- What a set pattern repeats, in memory as in the text: the bytes of its pairs. -/
theorem repeated_of_decode {text : String} {bytes : List UInt8}
    (h : decode (some text) = .ok bytes) (nonempty : text ≠ "") :
    0 < bytes.length ∧
      ∀ place, pairByte? (Text.units text) (place % (Text.width text / 2)) =
        some (repeated bytes place) := by
  obtain ⟨spelled, hs, rfl⟩ := decode_some_eq_ok_iff.1 h
  have width : Text.width text / 2 = spelled.length := by
    have := length_of_decodePairs hs
    simp only [Text.width]
    omega
  have units : Text.units text ≠ [] := fun none => nonempty (Text.units_injective none)
  have filled : 0 < spelled.length := by
    have := List.length_pos_iff.2 units
    have := length_of_decodePairs hs
    omega
  have copied := copies_pos (Text.units text).length
  refine ⟨?_, fun place => ?_⟩
  · rw [length_replicate_flatten]
    exact Nat.mul_pos copied filled
  · have inside : place % spelled.length < spelled.length := Nat.mod_lt _ filled
    rw [repeated_copies spelled copied, width, ← getElem?_of_decodePairs hs, repeated,
      List.getD_eq_getElem?_getD, List.getElem?_eq_getElem inside, Option.getD_some]

end FillPattern

/-! ## 5. Memory filled after loading -/

namespace Memory

/-- Bytes laid end to end are those of the stream that the elements were read from, where the
elements are numbers. -/
theorem getElem?_toBytes_map {m : Memory} (stream : Nat → UInt8) {n place : Nat}
    (inside : place < 4 * n)
    (number : (m.keep (.spelled stream (4 * (place / 4)))).isNaN = false) :
    (((List.range n).map fun i => m.keep (.spelled stream (4 * i))).flatMap
      Element.toBytes)[place]? = some (stream place) := by
  have held : ((List.range n).map fun i => m.keep (.spelled stream (4 * i)))[place / 4]? =
      some (m.keep (.spelled stream (4 * (place / 4)))) := by
    rw [List.getElem?_map, List.getElem?_range (by omega), Option.map_some]
  rw [Element.getElem?_flatMap_toBytes, held, Option.bind_some]
  rcases m.keep_same (.spelled stream (4 * (place / 4))) with same | nan
  · rw [same, Element.getElem?_toBytes_spelled _ _ (Nat.mod_lt _ (by decide)),
      Nat.div_add_mod place 4]
  · rw [nan.1] at number
    cases number

theorem getElem?_map_range {α : Type} {element : Nat → α} {n i : Nat} {e : α}
    (held : ((List.range n).map element)[i]? = some e) : e = element i := by
  rw [List.getElem?_map, Option.map_eq_some_iff] at held
  obtain ⟨j, hj, rfl⟩ := held
  obtain ⟨_, rfl⟩ := List.getElem?_eq_some_iff.1 hj
  rw [List.getElem_range]

/-- Every environment that loads fills every memory that has the room. From a pattern text with
digits comes the endless repetition of the bytes that its pairs spell, without a seam where the
text, the decoded bytes or the elements start over; an unset or empty pattern gives the
pseudo-random whole numbers. -/
theorem fill_of_load {env : Environment} {loaded : Loaded} (loads : env.load = .ok loaded)
    (m : Memory) {n : Nat} (fits : n ≤ m.maxElements) :
    ∃ elements, m.fill (.whole loaded.configuration.pattern) (.integer n) = .ok elements ∧
      elements.length = n ∧
      (∀ text, env.get? fillPatternVariable = some text → text ≠ "" →
        ∃ endless : Nat → UInt8,
          (∀ place, FillPattern.pairByte? (Text.units text) (place % (Text.width text / 2)) =
            some (endless place)) ∧
          (∀ (i : Nat) (e : Element), elements[i]? = some e → e.Same (.spelled endless (4 * i))) ∧
          (elements.flatMap Element.toBytes).length = 4 * n ∧
          ∀ place < 4 * n, (∀ e, elements[place / 4]? = some e → e.isNaN = false) →
            (elements.flatMap Element.toBytes)[place]? = some (endless place)) ∧
      (env.get? fillPatternVariable = none ∨ env.get? fillPatternVariable = some "" →
        ∀ i < n, ∃ e, elements[i]? = some e ∧ e.value? = some ((i % 383 + 31 : Nat) : Rat)) := by
  obtain ⟨pattern, decoded, -, rfl⟩ := (env.load_eq_ok_iff loaded).1 loads
  rw [Environment.patternText] at decoded
  have whole := FillPattern.length_decode_mod decoded
  show ∃ elements, m.fill (.whole pattern) (.integer n) = .ok elements ∧ _
  by_cases unset : env.get? fillPatternVariable = none ∨ env.get? fillPatternVariable = some ""
  · have empty : pattern = [] := by
      rcases unset with none | blank
      · rw [none] at decoded
        cases decoded
        rfl
      · rw [blank] at decoded
        cases decoded
        rfl
    subst empty
    refine ⟨_, m.fill_nil fits, by simp, fun text set nonempty => ?_, fun _ i inside =>
      ⟨_, ?_, Element.value?_pseudoRandom i⟩⟩
    · rcases unset with none | blank
      · rw [none] at set
        cases set
      · rw [blank] at set
        exact absurd (Option.some.inj set).symm nonempty
    · rw [List.getElem?_map, List.getElem?_range inside, Option.map_some]
  · obtain ⟨text, set⟩ : ∃ text, env.get? fillPatternVariable = some text :=
      Option.ne_none_iff_exists'.1 fun none => unset (.inl none)
    have nonempty : text ≠ "" := fun blank => unset (.inr (by rw [set, blank]))
    rw [set] at decoded
    obtain ⟨filled, pairs⟩ := FillPattern.repeated_of_decode decoded nonempty
    refine ⟨_, m.fill_pattern fits filled whole, by simp, ?_, fun blank => absurd blank unset⟩
    intro other same _
    obtain rfl : text = other := Option.some.inj (set.symm.trans same)
    refine ⟨repeated pattern, pairs, fun i e held => ?_, ?_, fun place inside numbers => ?_⟩
    · rw [getElem?_map_range held]
      exact m.keep_same _
    · rw [Element.length_flatMap_toBytes, List.length_map, List.length_range]
    · refine getElem?_toBytes_map _ inside (numbers _ ?_)
      rw [List.getElem?_map, List.getElem?_range (by omega), Option.map_some]

/-- A pattern of three bytes, which are no whole element. -/
def threeBytes : Environment := .ofList [("FILL_PATTERN", some "C0ffEE"), ("SHOW_ADDR", some "1")]

theorem fill_of_load_threeBytes :
    ∃ loaded, threeBytes.load = .ok loaded ∧ 7 ≤ usual.maxElements ∧
      ∃ elements, usual.fill (.whole loaded.configuration.pattern) 7 = .ok elements ∧
        elements.length = 7 ∧
        ∃ endless : Nat → UInt8,
          (∀ place, FillPattern.pairByte? (Text.units "C0ffEE") (place % 3) =
            some (endless place)) ∧
          ∀ (i : Nat) (e : Element), elements[i]? = some e → e.Same (.spelled endless (4 * i)) := by
  have loads : threeBytes.load = .ok ⟨threeBytes.configurationOf
      [0xC0, 0xFF, 0xEE, 0xC0, 0xFF, 0xEE, 0xC0, 0xFF, 0xEE, 0xC0, 0xFF, 0xEE],
      threeBytes.warnings⟩ :=
    (threeBytes.load_eq_ok_iff _).2
      ⟨_, rfl, fun q => by cases q <;> decide +kernel, rfl⟩
  obtain ⟨elements, filled, length, tiled, -⟩ :=
    fill_of_load loads usual (n := 7) (by decide)
  obtain ⟨endless, pairs, same, -⟩ := tiled "C0ffEE" (by decide) (by decide)
  exact ⟨_, loads, by decide, elements, filled, length, endless, pairs, same⟩

end Memory

end BenchSettings
