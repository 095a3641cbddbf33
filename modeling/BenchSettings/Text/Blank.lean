/-
BenchSettings.Text.Blank — the blank characters that trimming removes.

Two notions of blank meet in this library. A lenient number skips only the
six ASCII ones (`isSpace`), while the strict form of a number is looked for
in the text with every Unicode blank and line end removed from both sides
(`isBlank`, `trim`). They differ on the no-break space, the byte order mark
and the wide blanks, and the difference is visible: such a text reads as 0
and is reported as out of range. `isBlank_of_isSpace` says that the first
notion is part of the second.
-/

namespace BenchSettings.Text

/-! ## 1. ASCII space -/

/-- Space, tab, line feed, vertical tab, form feed and carriage return. -/
def isSpace (c : Char) : Bool :=
  c == ' ' || (decide ('\x09' ≤ c) && decide (c ≤ '\x0d'))

/-! ## 2. Unicode blanks -/

/-- Blanks and line ends as ranges of code points: the ASCII six, the no-break space, the space
separators, the two separators of lines and paragraphs, and the byte order mark. -/
def blankRanges : List (Nat × Nat) :=
  [(0x09, 0x0d), (0x20, 0x20), (0xa0, 0xa0), (0x1680, 0x1680), (0x2000, 0x200a),
   (0x2028, 0x2029), (0x202f, 0x202f), (0x205f, 0x205f), (0x3000, 0x3000), (0xfeff, 0xfeff)]

/-- A character that trimming removes. -/
def isBlank (c : Char) : Bool :=
  blankRanges.any fun (lo, hi) => decide (lo ≤ c.toNat) && decide (c.toNat ≤ hi)

theorem isBlank_of_isSpace {c : Char} (h : isSpace c = true) : isBlank c = true := by
  simp only [isSpace, Bool.or_eq_true, Bool.and_eq_true, beq_iff_eq, decide_eq_true_eq] at h
  rcases h with rfl | ⟨h₁, h₂⟩
  · decide
  · have lo : 0x09 ≤ c.toNat := h₁
    have hi : c.toNat ≤ 0x0d := h₂
    simp [isBlank, blankRanges, lo, hi]

theorem isSpace_of_not_isBlank {c : Char} (h : isBlank c = false) : isSpace c = false := by
  rw [← Bool.not_eq_true]
  intro space
  rw [isBlank_of_isSpace space] at h
  cases h

/-! ## 3. Where a run of characters ends -/

/-- A run does not start with what is none of it. -/
theorem takeWhile_of_head? {p : Char → Bool} {cs : List Char}
    (first : ∀ c ∈ cs.head?, p c = false) : cs.takeWhile p = [] := by
  cases cs with
  | nil => rfl
  | cons c rest => simp [first c rfl]

theorem dropWhile_of_head? {p : Char → Bool} {cs : List Char}
    (first : ∀ c ∈ cs.head?, p c = false) : cs.dropWhile p = cs := by
  cases cs with
  | nil => rfl
  | cons c rest => simp [first c rfl]

/-- A run ends before the first character that is none of it. -/
theorem takeWhile_append_of_head? {p : Char → Bool} {cs rest : List Char}
    (run : ∀ c ∈ cs, p c = true) (stop : ∀ c ∈ rest.head?, p c = false) :
    (cs ++ rest).takeWhile p = cs := by
  rw [List.takeWhile_append_of_pos run, takeWhile_of_head? stop, List.append_nil]

/-! ## 4. Trimming -/

/-- The characters without the ones at either end that satisfy `p`. -/
def trimBoth (p : Char → Bool) (cs : List Char) : List Char :=
  ((cs.dropWhile p).reverse.dropWhile p).reverse

def trim (s : String) : List Char := trimBoth isBlank s.toList

/-- A text that starts and ends with something else is left alone. -/
theorem trimBoth_eq_self {p : Char → Bool} {cs : List Char} (first : ∀ c ∈ cs.head?, p c = false)
    (last : ∀ c ∈ cs.getLast?, p c = false) : trimBoth p cs = cs := by
  have last' : ∀ c ∈ cs.reverse.head?, p c = false := by
    simpa using last
  rw [trimBoth, dropWhile_of_head? first, dropWhile_of_head? last', List.reverse_reverse]

end BenchSettings.Text
