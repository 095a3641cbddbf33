/-
BenchSettings.Proofs.Json.Tokens — quoted texts and whole numbers, read back.

The two kinds of tokens that carry data. A quoted text is read back whatever
stands in it (`readString?_quote`), since every character is read back by
itself: either it stands for itself, or its escape spells its units. That
needs a text that units can spell at all, with no half of a pair on its own
(`Proper`); of proper texts every one is.

A whole number below 2 ^ 53 is written with all its digits, and the number
nearest to these digits is itself (`readNumber?_decimal`). Digits do not say
where they end, so this holds before what may follow a value in a printed
text (`Stops`).
-/
import BenchSettings.Json.Printer
import BenchSettings.Json.Reader
import BenchSettings.Proofs.Number.Whole

namespace BenchSettings.Json

open Text (Sign Spelled charUnits)

variable {τ : Type} [Spelled τ]

/-! ## 1. Quoted texts -/

/-- A text of characters, which the units of these characters spell. -/
def Proper (s : τ) : Prop :=
  ∃ t : String, Spelled.signs s = t.toList.map .char ∧ Spelled.ofUnits (Text.units t) = s

theorem proper_string (s : String) : Proper s := by
  refine ⟨s, rfl, ?_⟩
  show String.ofList (Text.ofUnits (s.toList.flatMap charUnits)) = s
  rw [Text.ofUnits_charUnits, String.ofList_toList]

/-- Units in front of those that are read next. -/
def withUnits (more : List Nat) (read : List Nat × List Char) : List Nat × List Char :=
  (more ++ read.1, read.2)

theorem readUnits?_escapeUnit {unit : Nat} (h : unit < 0x10000) (rest : List Char) :
    readUnits? (escapeUnit unit ++ rest) = (readUnits? rest).map (withUnits [unit]) := by
  have spelled := Text.Hex.number?_lower h
  simp only [List.map_cons, List.map_nil] at spelled
  simp only [escapeUnit, List.map_cons, List.map_nil, List.cons_append, List.nil_append]
  rw [readUnits?.eq_3, spelled]
  cases readUnits? rest <;> rfl

theorem readUnits?_letter {letter : Char} {unit : Nat} (h : escapedUnit? letter = some unit)
    (rest : List Char) :
    readUnits? ('\\' :: letter :: rest) = (readUnits? rest).map (withUnits [unit]) := by
  have other : ∀ a b c d more, letter = 'u' → rest = a :: b :: c :: d :: more → False := by
    rintro _ _ _ _ _ rfl
    cases h
  rw [readUnits?.eq_4 letter rest other, h]
  cases readUnits? rest <;> rfl

/-- A character that has no escape stands for itself. -/
theorem readUnits?_plain {c : Char} (quote : c ≠ '"') (backslash : c ≠ '\\') (printed : ' ' ≤ c)
    (rest : List Char) :
    readUnits? (c :: rest) = (readUnits? rest).map (withUnits (charUnits c)) := by
  rw [readUnits?.eq_5 c rest quote (fun _ _ _ _ _ e => absurd e backslash)
    (fun _ _ e => absurd e backslash), if_neg (Char.not_lt.2 printed)]
  cases readUnits? rest <;> rfl

theorem readUnits?_escapeChar (c : Char) (rest : List Char) :
    readUnits? (escapeChar c ++ rest) = (readUnits? rest).map (withUnits (charUnits c)) := by
  unfold escapeChar
  split
  · subst c
    exact readUnits?_letter rfl rest
  split
  · subst c
    exact readUnits?_letter rfl rest
  split
  · rename_i quote backslash printed
    exact readUnits?_plain quote backslash printed rest
  -- What is left are the control characters: five have a letter and the others four digits.
  split
  · subst c
    exact readUnits?_letter rfl rest
  split
  · subst c
    exact readUnits?_letter rfl rest
  split
  · subst c
    exact readUnits?_letter rfl rest
  split
  · subst c
    exact readUnits?_letter rfl rest
  split
  · subst c
    exact readUnits?_letter rfl rest
  · rename_i control _ _ _ _ _
    have small : c.toNat < 0x10000 := by
      have below : c < ' ' := Char.not_le.1 control
      have : c.toNat < 0x20 := below
      omega
    rw [Text.charUnits_of_lt small]
    exact readUnits?_escapeUnit small rest

theorem readUnits?_escaped (cs rest : List Char) :
    readUnits? (cs.flatMap escapeChar ++ '"' :: rest) = some (cs.flatMap charUnits, rest) := by
  induction cs with
  | nil => exact readUnits?.eq_2 rest
  | cons c cs ih =>
    rw [List.flatMap_cons, List.append_assoc, readUnits?_escapeChar, ih, Option.map_some]
    rfl

/-- A quoted text without its first quote. -/
def quoteTail (s : τ) : List Char := (Spelled.signs s).flatMap escapeSign ++ ['"']

/-- A proper text is read back up to its closing quote. -/
theorem readString?_quoteTail {s : τ} (proper : Proper s) (rest : List Char) :
    readString? (quoteTail s ++ rest) = some (s, rest) := by
  obtain ⟨t, signs, spelled⟩ := proper
  have escaped : quoteTail s ++ rest = t.toList.flatMap escapeChar ++ '"' :: rest := by
    simp [quoteTail, signs, List.flatMap_map, escapeSign]
  have read := readUnits?_escaped t.toList rest
  simp only [readString?, escaped, read, Option.map_some, Option.some.injEq, Prod.mk.injEq,
    and_true]
  exact spelled

/-! ## 2. Whole numbers -/

/-- What may follow a value: nothing, a comma or the end of a line. -/
def Stops (rest : List Char) : Prop := ∀ c ∈ rest.head?, c = ',' ∨ c = '\n'

theorem splitDigits_append {ds rest : List Char} (digits : ∀ c ∈ ds, c.isDigit = true)
    (stops : ∀ c ∈ rest.head?, c.isDigit = false) : splitDigits (ds ++ rest) = (ds, rest) := by
  rw [splitDigits, Text.takeWhile_append_of_head? digits stops,
    List.dropWhile_append_of_pos digits, Text.dropWhile_of_head? stops]

/-- What may follow a value continues no number. -/
theorem Stops.ne_of_mem {rest : List Char} (stops : Stops rest) {c : Char} (h : c ∈ rest.head?) :
    c.isDigit = false ∧ c ≠ '.' ∧ c ≠ 'e' ∧ c ≠ 'E' := by
  rcases stops c h with rfl | rfl <;> decide

theorem readFraction?_of_stops {rest : List Char} (stops : Stops rest) :
    readFraction? rest = some ([], rest) := by
  unfold readFraction?
  split
  · exact absurd rfl (stops.ne_of_mem rfl).2.1
  · rfl

theorem readExponent?_of_stops {rest : List Char} (stops : Stops rest) :
    readExponent? rest = some (0, rest) := by
  cases rest with
  | nil => rfl
  | cons c more =>
    obtain ⟨-, -, lower, upper⟩ := stops.ne_of_mem (c := c) rfl
    rw [readExponent?, if_neg (by simp [lower, upper])]

/-- The digits of a number are no lone zero with more behind it. -/
theorem decimalDigits_wellFormed (n : Nat) :
    ¬(Text.decimalDigits n = [] ∨
      ((Text.decimalDigits n).head? = some '0' ∧ (Text.decimalDigits n).length ≠ 1)) := by
  rintro (empty | ⟨zero, long⟩)
  · exact Text.decimalDigits_ne_nil n empty
  · by_cases h : n = 0
    · subst h
      exact long (by decide)
    · exact Text.head?_decimalDigits h zero

/-- Digits are read back up to where they stop, with the sign in front of them. -/
theorem readNumber?_decimalDigits (negative : Bool) {n : Nat} (exact : n < 2 ^ Number.precision)
    {rest : List Char} (stops : Stops rest) :
    readNumber? ((if negative then ['-'] else []) ++ (Text.decimalDigits n ++ rest)) =
      some (.integer (Text.withSign negative n), rest) := by
  have value := Text.digitsValue_decimalDigits n
  have nearest : Number.ofDecimal negative n 0 = .integer (Text.withSign negative n) := by
    rcases Number.ofDigits_cases negative (Text.decimalDigits n) with met | great
    · rw [← value]
      exact met.2
    · omega
  have split : splitDigits (Text.decimalDigits n ++ rest) = (Text.decimalDigits n, rest) :=
    splitDigits_append (fun _ => Text.isDigit_of_mem_decimalDigits)
      fun c mem => (stops.ne_of_mem mem).1
  have unsigned : ∀ more, Text.decimalDigits n ++ rest ≠ '-' :: more := by
    intro more same
    obtain ⟨c, cs, h⟩ := List.exists_cons_of_ne_nil (Text.decimalDigits_ne_nil n)
    have digit : c.isDigit = true := Text.isDigit_of_mem_decimalDigits (n := n) (by simp [h])
    rw [h, List.cons_append, List.cons.injEq] at same
    rw [same.1] at digit
    cases digit
  cases negative with
  | false =>
    simp only [Bool.false_eq_true, if_false, List.nil_append]
    unfold readNumber?
    split
    rename_i heq
    split at heq
    · rename_i minus
      exact absurd minus (unsigned _)
    · cases heq
      simp [split, decimalDigits_wellFormed n, readFraction?_of_stops stops,
        readExponent?_of_stops stops, value, nearest]
  | true =>
    simp [readNumber?, split, decimalDigits_wellFormed n, readFraction?_of_stops stops,
      readExponent?_of_stops stops, value, nearest]

/-- A whole number that a double holds is read back from its decimal text. -/
theorem readNumber?_decimal {n : Int} (exact : n.natAbs < 2 ^ Number.precision) {rest : List Char}
    (stops : Stops rest) :
    readNumber? ((Text.decimal n).toList ++ rest) = some (.integer n, rest) := by
  cases n with
  | ofNat k =>
    rw [Text.decimal, String.toList_ofList]
    exact readNumber?_decimalDigits false exact stops
  | negSucc k =>
    rw [Text.decimal, String.toList_ofList]
    exact readNumber?_decimalDigits true exact stops

end BenchSettings.Json
