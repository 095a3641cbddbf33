/-
BenchSettings.Proofs.Json.RoundTrip — a printed value is read back.

`parse?_toText` says that reading the text of a value gives the value again.
That asks four things of it (`Legible`), and each is there because the text
alone could not tell: texts have no half of a pair on its own, numbers are
whole and below 2 ^ 53, the names in an object are distinct, and its members
stand in the order in which every reader lists them.

The proof goes along `Legible`. A value is read back in any line and before
anything that may follow a value (`ReadBack`), with as much fuel as its text
is long: every nested value has a shorter text than the one around it, and the
commas, the brackets and the ends of lines leave fuel for the steps between
them. Items and members are read back by induction on their list, from the
same statement about each of them.
-/
import BenchSettings.Proofs.Json.Tokens

namespace BenchSettings.Json

open Text (Sign Spelled)

variable {τ : Type} [Spelled τ]

/-! ## 1. Values that their text tells -/

/-- A value that its text gives back. -/
inductive Legible : JsonOf τ → Prop
  | null : Legible .null
  | bool (b : Bool) : Legible (.bool b)
  | number {n : Int} (exact : n.natAbs < 2 ^ Number.precision) : Legible (.number (.integer n))
  | string {s : τ} (proper : Proper s) : Legible (.string s)
  | array {items : List (JsonOf τ)} (all : ∀ v ∈ items, Legible v) : Legible (.array items)
  | object {members : List (τ × JsonOf τ)} (distinct : (Named.names members).Nodup)
      (arranged : arrange members = members) (proper : ∀ m ∈ members, Proper m.1)
      (all : ∀ m ∈ members, Legible m.2) : Legible (.object members)

/-! ## 2. Blanks -/

theorem skipGap_of_not_gap {c : Char} (h : isGap c = false) (cs : List Char) :
    skipGap (c :: cs) = c :: cs := by
  simp [skipGap, h]

theorem skipGap_newline (cs : List Char) : skipGap ('\n' :: cs) = skipGap cs := rfl

theorem skipGap_indent (level : Nat) (cs : List Char) :
    skipGap (indent level ++ cs) = skipGap cs := by
  refine List.dropWhile_append_of_pos fun c mem => ?_
  rw [List.eq_of_mem_replicate mem]
  rfl

/-! ## 3. How a value starts -/

/-- The first characters of values are neither blanks nor the bracket that ends an array. -/
def Starts (c : Char) : Prop := isGap c = false ∧ c ≠ ']'

theorem starts_of_isDigit {c : Char} (digit : c.isDigit = true) : Starts c := by
  constructor
  · cases gap : isGap c with
    | false => rfl
    | true =>
      simp only [isGap, Bool.or_eq_true, beq_iff_eq] at gap
      rcases gap with ((rfl | rfl) | rfl) | rfl <;> cases digit
  · rintro rfl
    cases digit

/-- A number that is written out starts with a digit or a minus. -/
theorem decimal_head (n : Int) : ∃ c cs, (Text.decimal n).toList = c :: cs ∧
    (c.isDigit = true ∨ c = '-') := by
  cases n with
  | ofNat k =>
    obtain ⟨c, cs, h⟩ := List.exists_cons_of_ne_nil (Text.decimalDigits_ne_nil k)
    refine ⟨c, cs, by rw [Text.decimal, String.toList_ofList, h], .inl ?_⟩
    exact Text.isDigit_of_mem_decimalDigits (n := k) (by simp [h])
  | negSucc k => exact ⟨'-', _, by rw [Text.decimal, String.toList_ofList], .inr rfl⟩

theorem numberText_integer {n : Int} (exact : n.natAbs < 2 ^ Number.precision) :
    numberText (.integer n) = (Text.decimal n).toList := by
  have all : n.natAbs ≤ Number.allDigitsBelow := Nat.le_of_lt exact
  show (Number.text (.integer n)).toList = _
  rw [Number.text, if_pos all]

theorem print_head {v : JsonOf τ} (h : Legible v) (level : Nat) :
    ∃ c cs, print level v = c :: cs ∧ Starts c := by
  cases h with
  | null => exact ⟨'n', _, rfl, by decide, by decide⟩
  | bool b =>
    cases b with
    | true => exact ⟨'t', _, rfl, by decide, by decide⟩
    | false => exact ⟨'f', _, rfl, by decide, by decide⟩
  | @number n exact =>
    obtain ⟨c, cs, text, first⟩ := decimal_head n
    refine ⟨c, cs, by rw [print, numberText_integer exact, text], ?_⟩
    rcases first with digit | rfl
    · exact starts_of_isDigit digit
    · exact ⟨by decide, by decide⟩
  | string => exact ⟨'"', _, rfl, by decide, by decide⟩
  | @array items _ =>
    cases items with
    | nil => exact ⟨'[', _, rfl, by decide, by decide⟩
    | cons item rest => exact ⟨'[', _, rfl, by decide, by decide⟩
  | @object members _ _ _ _ =>
    cases members with
    | nil => exact ⟨'\x7b', _, rfl, by decide, by decide⟩
    | cons member rest => exact ⟨'\x7b', _, rfl, by decide, by decide⟩

theorem skipGap_print {v : JsonOf τ} (h : Legible v) (level : Nat) (rest : List Char) :
    skipGap (print level v ++ rest) = print level v ++ rest := by
  obtain ⟨c, cs, text, starts⟩ := print_head h level
  rw [text, List.cons_append, skipGap_of_not_gap starts.1]

/-- Items that are there do not end their array at once. -/
theorem skipGap_printItems_ne {item : JsonOf τ} (first : Legible item) (items : List (JsonOf τ))
    (level : Nat) (rest after : List Char) :
    skipGap (printItems level (item :: items) ++ rest) ≠ ']' :: after := by
  obtain ⟨c, cs, text, starts⟩ := print_head first level
  simp only [printItems, List.append_assoc]
  rw [skipGap_indent, skipGap_print first, text]
  exact fun same => starts.2 (List.cons.inj same).1

/-- A value takes up text, and so its reading some fuel. -/
theorem exists_fuel {v : JsonOf τ} (h : Legible v) {level fuel : Nat}
    (enough : (print level v).length ≤ fuel) : ∃ more, fuel = more + 1 := by
  obtain ⟨c, cs, text, -⟩ := print_head h level
  rw [text, List.length_cons] at enough
  exact ⟨fuel - 1, by omega⟩

/-! ## 4. Items and members -/

variable [DecidableEq τ]

/-- A value is read back on every line, before anything that may follow it, with as much fuel as
its text is long. -/
def ReadBack (v : JsonOf τ) : Prop :=
  ∀ level fuel rest, (print level v).length ≤ fuel → Stops rest →
    readValue? fuel (print level v ++ rest) = some (v, rest)

/-- Reading items goes past a printed one to what follows it. -/
theorem readItems?_item {level fuel : Nat} {item : JsonOf τ} (legible : Legible item)
    (back : ReadBack item) (enough : (print level item).length ≤ fuel) {rest : List Char}
    (stops : Stops rest) :
    readItems? (fuel + 1) (skipGap (indent level ++ (print level item ++ rest))) =
      match skipGap rest with
      | ']' :: after => some ([item], after)
      | ',' :: more => do
        let (items, after) ← readItems? fuel (skipGap more)
        return (item :: items, after)
      | _ => none := by
  rw [skipGap_indent, skipGap_print legible, readItems?, back level fuel rest enough stops]
  rfl

/-- Printed items are read back up to the bracket behind them. -/
theorem readItems?_printItems {level outer : Nat} {after : List Char} {item : JsonOf τ}
    {items : List (JsonOf τ)} (legible : ∀ v ∈ item :: items, Legible v)
    (back : ∀ v ∈ item :: items, ReadBack v) {fuel : Nat}
    (enough : (printItems level (item :: items)).length ≤ fuel) :
    readItems? fuel
        (skipGap (printItems level (item :: items) ++ (indent outer ++ ']' :: after))) =
      some (item :: items, after) := by
  have first := legible item List.mem_cons_self
  have firstBack := back item List.mem_cons_self
  induction items generalizing item fuel with
  | nil =>
    rw [printItems] at enough ⊢
    simp only [separator, printItems, List.append_nil, List.append_assoc, List.cons_append,
      List.nil_append, List.length_append, List.length_cons] at enough ⊢
    -- The step to the item is paid for by the end of its line, here and below.
    obtain ⟨fuel, rfl⟩ : ∃ k, fuel = k + 1 := ⟨fuel - 1, by omega⟩
    rw [readItems?_item first firstBack (by omega) (by simp [Stops]), skipGap_newline,
      skipGap_indent]
    rfl
  | cons next more ih =>
    rw [printItems] at enough ⊢
    simp only [separator, List.append_assoc, List.cons_append, List.nil_append, List.length_append,
      List.length_cons] at enough ⊢
    obtain ⟨fuel, rfl⟩ : ∃ k, fuel = k + 1 := ⟨fuel - 1, by omega⟩
    have shorter : (printItems level (next :: more)).length ≤ fuel := by omega
    have others := ih (fun v mem => legible v (List.mem_cons_of_mem item mem))
      (fun v mem => back v (List.mem_cons_of_mem item mem)) shorter
      (legible next (by simp)) (back next (by simp))
    rw [readItems?_item first firstBack (by omega) (by simp [Stops]),
      skipGap_of_not_gap (by rfl)]
    simp only [skipGap_newline, others]
    rfl

/-- Reading members goes past a printed one to what follows it. -/
theorem readMembers?_member {level fuel : Nat} {name : τ} {value : JsonOf τ} (proper : Proper name)
    (legible : Legible value) (back : ReadBack value) (enough : (print level value).length ≤ fuel)
    {rest : List Char} (stops : Stops rest) :
    readMembers? (fuel + 1)
        (skipGap (indent level ++ (quote name ++ ':' :: ' ' :: (print level value ++ rest)))) =
      match skipGap rest with
      | '\x7d' :: after => some ([(name, value)], after)
      | ',' :: more => do
        let (members, after) ← readMembers? fuel (skipGap more)
        return ((name, value) :: members, after)
      | _ => none := by
  have opened : quote name ++ ':' :: ' ' :: (print level value ++ rest) =
      '"' :: (quoteTail name ++ ':' :: ' ' :: (print level value ++ rest)) := rfl
  have named := readString?_quoteTail proper (':' :: ' ' :: (print level value ++ rest))
  have blank : skipGap (' ' :: (print level value ++ rest)) = print level value ++ rest :=
    skipGap_print legible level rest
  rw [skipGap_indent, opened, skipGap_of_not_gap rfl, readMembers?]
  simp only [afterWord?, if_true, Option.bind_eq_bind, Option.bind_some, named,
    skipGap_of_not_gap (show isGap ':' = false from rfl), blank, back level fuel rest enough stops]
  rfl

/-- Printed members are read back up to the brace behind them. -/
theorem readMembers?_printMembers {level outer : Nat} {after : List Char} {member : τ × JsonOf τ}
    {members : List (τ × JsonOf τ)} (proper : ∀ m ∈ member :: members, Proper m.1)
    (legible : ∀ m ∈ member :: members, Legible m.2)
    (back : ∀ m ∈ member :: members, ReadBack m.2) {fuel : Nat}
    (enough : (printMembers level (member :: members)).length ≤ fuel) :
    readMembers? fuel
        (skipGap (printMembers level (member :: members) ++ (indent outer ++ '\x7d' :: after))) =
      some (member :: members, after) := by
  have firstName := proper member List.mem_cons_self
  have first := legible member List.mem_cons_self
  have firstBack := back member List.mem_cons_self
  induction members generalizing member fuel with
  | nil =>
    rw [printMembers] at enough ⊢
    simp only [separator, printMembers, List.append_nil, List.append_assoc, List.cons_append,
      List.nil_append, List.length_append, List.length_cons] at enough ⊢
    obtain ⟨fuel, rfl⟩ : ∃ k, fuel = k + 1 := ⟨fuel - 1, by omega⟩
    rw [readMembers?_member firstName first firstBack (by omega) (by simp [Stops]),
      skipGap_newline, skipGap_indent]
    rfl
  | cons next more ih =>
    rw [printMembers] at enough ⊢
    simp only [separator, List.append_assoc, List.cons_append, List.nil_append, List.length_append,
      List.length_cons] at enough ⊢
    obtain ⟨fuel, rfl⟩ : ∃ k, fuel = k + 1 := ⟨fuel - 1, by omega⟩
    have shorter : (printMembers level (next :: more)).length ≤ fuel := by omega
    have others := ih (fun m mem => proper m (List.mem_cons_of_mem member mem))
      (fun m mem => legible m (List.mem_cons_of_mem member mem))
      (fun m mem => back m (List.mem_cons_of_mem member mem)) shorter
      (proper next (by simp)) (legible next (by simp)) (back next (by simp))
    rw [readMembers?_member firstName first firstBack (by omega) (by simp [Stops]),
      skipGap_of_not_gap (by rfl)]
    simp only [skipGap_newline, others]
    rfl

/-! ## 5. Values -/

/-- A number starts like no other value. -/
theorem readValue?_number {c : Char} (first : c.isDigit = true ∨ c = '-') (fuel : Nat)
    (cs : List Char) :
    readValue? (fuel + 1) (c :: cs) =
      (readNumber? (c :: cs)).map fun (n, after) => ((.number n : JsonOf τ), after) := by
  have other {d : Char} (h : (d.isDigit || d == '-') = false) : c ≠ d := by
    rintro rfl
    rcases first with digit | rfl
    · rw [digit] at h
      cases h
    · cases h
  rw [readValue?, if_neg (other rfl), if_neg (other rfl), if_neg (other rfl), if_neg (other rfl),
    if_neg (other rfl), if_neg (other rfl)]

theorem readValue?_array {text : List Char} (filled : ∀ after, skipGap text ≠ ']' :: after)
    (fuel : Nat) :
    readValue? (fuel + 1) ('[' :: text) =
      (readItems? fuel (skipGap text)).map fun (items, after) =>
        ((.array items : JsonOf τ), after) := by
  rw [readValue?, if_neg (by decide), if_pos rfl]
  split
  · rename_i after empty
    exact absurd empty (filled after)
  · rfl

theorem readValue?_object {text : List Char} (filled : ∀ after, skipGap text ≠ '\x7d' :: after)
    (fuel : Nat) :
    readValue? (fuel + 1) ('\x7b' :: text) =
      (readMembers? fuel (skipGap text)).map fun (members, after) =>
        ((ofWritten members : JsonOf τ), after) := by
  rw [readValue?, if_neg (by decide), if_neg (by decide), if_pos rfl]
  split
  · rename_i after empty
    exact absurd empty (filled after)
  · rfl

/-- Members of distinct names, arranged, are the object that they make. -/
theorem ofWritten_of_arranged {members : List (τ × JsonOf τ)}
    (distinct : (Named.names members).Nodup) (arranged : arrange members = members) :
    ofWritten members = .object members := by
  rw [ofWritten, Named.ofPairs_of_nodup distinct, arranged]

theorem readBack_array {items : List (JsonOf τ)} (legible : ∀ v ∈ items, Legible v)
    (back : ∀ v ∈ items, ReadBack v) : ReadBack (.array items) := by
  intro level fuel rest enough stops
  cases items with
  | nil =>
    obtain ⟨fuel, rfl⟩ := exists_fuel (.array legible) enough
    rfl
  | cons item more =>
    rw [print] at enough ⊢
    simp only [List.length_cons, List.length_append] at enough
    obtain ⟨fuel, rfl⟩ : ∃ k, fuel = k + 1 := ⟨fuel - 1, by omega⟩
    have shorter : (printItems (level + 1) (item :: more)).length ≤ fuel := by omega
    simp only [List.append_assoc, List.cons_append, List.nil_append]
    rw [readValue?_array, skipGap_newline, readItems?_printItems legible back shorter]
    · rfl
    · exact skipGap_printItems_ne (legible item List.mem_cons_self) more (level + 1) _

theorem readBack_object {members : List (τ × JsonOf τ)} (distinct : (Named.names members).Nodup)
    (arranged : arrange members = members) (proper : ∀ m ∈ members, Proper m.1)
    (legible : ∀ m ∈ members, Legible m.2) (back : ∀ m ∈ members, ReadBack m.2) :
    ReadBack (.object members) := by
  intro level fuel rest enough stops
  cases members with
  | nil =>
    obtain ⟨fuel, rfl⟩ := exists_fuel (.object distinct arranged proper legible) enough
    rfl
  | cons member more =>
    rw [print] at enough ⊢
    simp only [List.length_cons, List.length_append] at enough
    obtain ⟨fuel, rfl⟩ : ∃ k, fuel = k + 1 := ⟨fuel - 1, by omega⟩
    have shorter : (printMembers (level + 1) (member :: more)).length ≤ fuel := by omega
    simp only [List.append_assoc, List.cons_append, List.nil_append]
    rw [readValue?_object, skipGap_newline,
      readMembers?_printMembers proper legible back shorter]
    · simp only [Option.map_some, ofWritten_of_arranged distinct arranged]
    · -- The first thing that is there is the quote of a name.
      intro after
      simp only [printMembers, List.append_assoc]
      rw [skipGap_newline, skipGap_indent]
      show '"' :: _ ≠ _
      simp

/-- Every value that its text tells is read back. -/
theorem readBack_of_legible {v : JsonOf τ} (h : Legible v) : ReadBack v := by
  induction h with
  | null =>
    intro level fuel rest enough stops
    obtain ⟨fuel, rfl⟩ := exists_fuel .null enough
    rfl
  | bool b =>
    intro level fuel rest enough stops
    obtain ⟨fuel, rfl⟩ := exists_fuel (.bool b) enough
    cases b <;> rfl
  | @number n exact =>
    intro level fuel rest enough stops
    obtain ⟨fuel, rfl⟩ := exists_fuel (.number exact) enough
    obtain ⟨c, cs, text, first⟩ := decimal_head n
    have read := readNumber?_decimal exact stops
    rw [print, numberText_integer exact]
    rw [text, List.cons_append] at read ⊢
    rw [readValue?_number first, read]
    rfl
  | @string s proper =>
    intro level fuel rest enough stops
    obtain ⟨fuel, rfl⟩ := exists_fuel (.string proper) enough
    show (readString? (quoteTail s ++ rest)).map _ = _
    rw [readString?_quoteTail proper]
    rfl
  | array all ih => exact readBack_array all ih
  | object distinct arranged proper all ih =>
    exact readBack_object distinct arranged proper all ih

/-- Reading the text of a value gives the value again. -/
theorem parse?_toText {v : JsonOf τ} (h : Legible v) : parse? (toText v) = some v := by
  have start := skipGap_print h 0 []
  have back := readBack_of_legible h 0 (2 * (print 0 v).length + 2) [] (by omega)
    (by simp [Stops])
  rw [List.append_nil] at start back
  simp only [parse?, toText, String.toList_ofList, start, back]
  rfl

end BenchSettings.Json
