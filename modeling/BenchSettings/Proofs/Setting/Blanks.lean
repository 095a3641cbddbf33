/-
BenchSettings.Proofs.Setting.Blanks — a whole number among blanks.

Whether a text is a whole number is asked of the trimmed text, and trimming
knows all blanks there are. The number that is used is looked for behind ASCII
space only. So there are texts that are whole numbers to the one and start with
no digit to the other. `Classified` says what is expected of reading a text;
`classified_read_iff` says that the expectation is met exactly for the texts
that are no such numbers. The others are read as 0, and the complaint about
them is a wrong one: that the number, in range or not, is out of range.

The blanks behind a number never matter (`lenient_of_plain`).
-/
import BenchSettings.Proofs.Setting.Reading

namespace BenchSettings

namespace Text

/-! ## 1. What trimming takes off -/

/-- The blanks in front of a text. -/
def leadingBlanks (s : String) : List Char := s.toList.takeWhile isBlank

/-- Trimming takes blanks off both ends and nothing else. -/
theorem exists_trailingBlanks (s : String) : ∃ trailing,
    s.toList = leadingBlanks s ++ (trim s ++ trailing) ∧ ∀ c ∈ trailing, isBlank c = true := by
  refine ⟨((s.toList.dropWhile isBlank).reverse.takeWhile isBlank).reverse, ?_, ?_⟩
  · have rest : s.toList.dropWhile isBlank = trim s ++
        ((s.toList.dropWhile isBlank).reverse.takeWhile isBlank).reverse := by
      rw [trim, trimBoth, ← List.reverse_append, List.takeWhile_append_dropWhile,
        List.reverse_reverse]
    rw [leadingBlanks, ← rest, List.takeWhile_append_dropWhile]
  · intro c mem
    exact List.mem_takeWhile_imp (List.mem_reverse.1 mem)

/-! ## 2. Numbers with something behind them -/

/-- A whole number is read up to its end, if what follows does not start with a digit. -/
theorem withSign_of_plain {cs rest : List Char} {n : Int} (plain : Plain cs n)
    (stop : ∀ c ∈ rest.head?, c.isDigit = false) :
    withSign (splitSign (cs ++ rest)).1
      (digitsValue ((splitSign (cs ++ rest)).2.takeWhile Char.isDigit)) = n := by
  cases plain with
  | unsigned nonempty digits =>
    obtain ⟨d, ds, rfl⟩ := List.exists_cons_of_ne_nil nonempty
    have signless : splitSign (d :: ds ++ rest) = (false, d :: ds ++ rest) :=
      splitSign_of_digit (digits d List.mem_cons_self) (ds ++ rest)
    rw [signless, takeWhile_append_of_head? digits stop]
    rfl
  | plus _ digits =>
    rw [List.cons_append, splitSign, takeWhile_append_of_head? digits stop]
    rfl
  | minus _ digits =>
    rw [List.cons_append, splitSign, takeWhile_append_of_head? digits stop]
    rfl

/-- A whole number does not start with space. -/
theorem isSpace_of_plain {cs : List Char} {n : Int} (plain : Plain cs n) (rest : List Char) :
    ∀ c ∈ (cs ++ rest).head?, isSpace c = false := by
  intro c first
  cases plain with
  | unsigned nonempty digits =>
    obtain ⟨d, ds, rfl⟩ := List.exists_cons_of_ne_nil nonempty
    obtain rfl : d = c := by simpa using first
    exact isSpace_of_isDigit (digits d List.mem_cons_self)
  | plus =>
    obtain rfl : '+' = c := by simpa using first
    decide
  | minus =>
    obtain rfl : '-' = c := by simpa using first
    decide

/-- A blank that is no space is neither a sign nor a digit. -/
theorem splitSign_of_isBlank {c : Char} (blank : isBlank c = true) (rest : List Char) :
    splitSign (c :: rest) = (false, c :: rest) := by
  unfold splitSign
  split
  · rename_i same
    cases same
    exact absurd blank (by decide)
  · rename_i same
    cases same
    exact absurd blank (by decide)
  · rfl

theorem isDigit_of_isBlank {c : Char} (blank : isBlank c = true) : c.isDigit = false := by
  rw [← Bool.not_eq_true]
  intro digit
  rw [isBlank_of_isDigit digit] at blank
  cases blank

end Text

/-! ## 3. The number that is used -/

/-- A whole number is read as itself, within the range, while there is nothing but ASCII space in
front of it, and as 0 otherwise. -/
theorem lenient_of_plain {text : String} {n : Int} (plain : Text.Plain (Text.trim text) n) :
    lenient text = if (Text.leadingBlanks text).all Text.isSpace then saturate n else 0 := by
  obtain ⟨trailing, parts, blank⟩ := Text.exists_trailingBlanks text
  rw [lenient_eq, parts]
  split
  · rename_i all
    have space := List.all_eq_true.1 all
    have stop : ∀ c ∈ trailing.head?, c.isDigit = false := fun c first =>
      Text.isDigit_of_isBlank (blank c (List.mem_of_mem_head? first))
    rw [List.dropWhile_append_of_pos space, Text.dropWhile_of_head? (Text.isSpace_of_plain plain _),
      Text.withSign_of_plain plain stop]
  · rename_i other
    -- The first blank that is no ASCII space ends the reading before it has a digit.
    obtain ⟨c, more, stays⟩ : ∃ c more,
        (Text.leadingBlanks text).dropWhile Text.isSpace = c :: more := by
      refine List.exists_cons_of_ne_nil fun all => other ?_
      exact List.all_eq_true.2 (List.dropWhile_eq_nil_iff.1 all)
    have front : Text.isBlank c = true := by
      have mem : c ∈ Text.leadingBlanks text :=
        (List.dropWhile_sublist _).mem (stays ▸ List.mem_cons_self)
      exact List.mem_takeWhile_imp mem
    rw [List.dropWhile_append, stays]
    simp only [List.isEmpty_cons, Bool.false_eq_true, if_false, List.cons_append,
      Text.splitSign_of_isBlank front, List.takeWhile_cons, Text.isDigit_of_isBlank front]
    decide

/-! ## 4. The complaint -/

/-- About a whole number the only complaint there can be is that another number is used. -/
theorem complaint?_of_plain {text : String} {n value : Int}
    (plain : Text.Plain (Text.trim text) n) (lo : minWhole ≤ value) (hi : value ≤ maxWhole) :
    complaint? text value = if n = value then none else some .outOfRange := by
  obtain ⟨⟨negative, ds⟩, parts, rfl⟩ :=
    Option.map_eq_some_iff.1 (Text.plainWhole?_eq_some_iff.2 plain)
  simp only [complaint?, parts, Number.ofDigits_eq_integer_iff negative ds lo hi]

theorem complaint?_of_not_plain {text : String} (value : Int)
    (none : ∀ n, ¬Text.Plain (Text.trim text) n) : complaint? text value = some .notInteger := by
  unfold complaint?
  cases parts : Text.plainDigits? (Text.trim text) with
  | none => rfl
  | some signed =>
    have whole : Text.plainWhole? (Text.trim text) =
        some (Text.withSign signed.1 (Text.digitsValue signed.2)) := by
      rw [Text.plainWhole?, parts, Option.map_some]
    exact absurd (Text.plainWhole?_eq_some_iff.1 whole) (none _)

/-! ## 5. Readings -/

/-- What is expected of reading a text. A whole number is used as it is, or as the end of the range
that it lies beyond, and then with a complaint that says so. Of any other text the lenient number is
used, with the complaint that it is no integer. -/
structure Classified (name text : String) (r : Reading) : Prop where
  value : ∀ n, Text.Plain (Text.trim text) n → r.value = saturate n
  silent : ∀ n, Text.Plain (Text.trim text) n → minWhole ≤ n ∧ n ≤ maxWhole → r.warning = none
  outOfRange : ∀ n, Text.Plain (Text.trim text) n → ¬(minWhole ≤ n ∧ n ≤ maxWhole) →
    r.warning = some ⟨name, text, r.value, .outOfRange⟩
  notInteger : (∀ n, ¬Text.Plain (Text.trim text) n) →
    r = ⟨lenient text, some ⟨name, text, lenient text, .notInteger⟩⟩

theorem saturate_eq_self_iff {n : Int} : saturate n = n ↔ minWhole ≤ n ∧ n ≤ maxWhole := by
  simp only [saturate, minWhole, maxWhole]
  omega

theorem saturate_eq_zero_iff {n : Int} : saturate n = 0 ↔ n = 0 := by
  simp only [saturate, minWhole, maxWhole]
  omega

namespace Environment

variable {env : Environment} {name text : String}

theorem read_of_plain {n : Int} (set : env.get? name = some text)
    (plain : Text.Plain (Text.trim text) n) (default : Int) :
    env.read name default = ⟨lenient text,
      if n = lenient text then none else some ⟨name, text, lenient text, .outOfRange⟩⟩ := by
  obtain ⟨lo, hi⟩ := lenient_mem text
  rw [read_of_set set, complaint?_of_plain plain lo hi]
  split <;> rfl

/-- A set variable is read as expected unless it is a whole number, not zero, behind a blank that is
no ASCII space. Such a number, whatever it is, is read as 0 and said to be out of range. -/
theorem classified_read_iff (set : env.get? name = some text) (default : Int) :
    (Classified name text (env.read name default) ↔
      ∀ n, Text.Plain (Text.trim text) n → n ≠ 0 →
        ∀ c ∈ Text.leadingBlanks text, Text.isSpace c = true) ∧
    ∀ n, Text.Plain (Text.trim text) n → n ≠ 0 →
      (∃ c ∈ Text.leadingBlanks text, Text.isSpace c = false) →
      env.read name default = ⟨0, some ⟨name, text, 0, .outOfRange⟩⟩ := by
  refine ⟨⟨?onlySpace, ?classified⟩, ?misread⟩
  case onlySpace =>
    intro classified n plain nonzero c mem
    have used : lenient text = saturate n := by
      rw [← classified.value n plain, read_of_set set]
    rw [lenient_of_plain plain] at used
    split at used
    · rename_i all
      exact List.all_eq_true.1 all c mem
    · exact absurd (saturate_eq_zero_iff.1 used.symm) nonzero
  case classified =>
    intro onlySpace
    have used : ∀ n, Text.Plain (Text.trim text) n → lenient text = saturate n := by
      intro n plain
      rw [lenient_of_plain plain]
      split
      · rfl
      · rename_i other
        by_cases zero : n = 0
        · exact (saturate_eq_zero_iff.2 zero).symm
        · exact absurd (List.all_eq_true.2 (onlySpace n plain zero)) other
    refine ⟨?_, ?_, ?_, ?_⟩
    · intro n plain
      rw [read_of_set set, used n plain]
    · intro n plain inRange
      rw [read_of_plain set plain, used n plain, if_pos (saturate_eq_self_iff.2 inRange).symm]
    · intro n plain outside
      rw [read_of_plain set plain, used n plain,
        if_neg fun same => outside (saturate_eq_self_iff.1 same.symm)]
    · intro none
      rw [read_of_set set, complaint?_of_not_plain _ none, Option.map_some]
  case misread =>
    rintro n plain nonzero ⟨c, mem, other⟩
    have zero : lenient text = 0 := by
      rw [lenient_of_plain plain, if_neg]
      intro all
      exact nomatch (List.all_eq_true.1 all c mem).symm.trans other
    rw [read_of_plain set plain, zero, if_neg nonzero]

/-- A number beyond the range, with ASCII space in front and another blank behind. -/
def paddedBeyond : Environment := .ofList [("NUM_WARMUPS", some "\t +2147483648\u00a0")]

theorem classified_read_iff_paddedBeyond :
    paddedBeyond.get? "NUM_WARMUPS" = some "\t +2147483648\u00a0" ∧
      Text.Plain (Text.trim "\t +2147483648\u00a0") 2147483648 ∧
      Classified "NUM_WARMUPS" "\t +2147483648\u00a0" (paddedBeyond.read "NUM_WARMUPS" 3) ∧
      paddedBeyond.read "NUM_WARMUPS" 3 =
        ⟨2147483647, some ⟨"NUM_WARMUPS", "\t +2147483648\u00a0", 2147483647, .outOfRange⟩⟩ := by
  have set : paddedBeyond.get? "NUM_WARMUPS" = some "\t +2147483648\u00a0" := by decide
  have space : ∀ c ∈ Text.leadingBlanks "\t +2147483648\u00a0", Text.isSpace c = true :=
    List.all_eq_true.1 (by decide)
  refine ⟨set, Text.plainWhole?_eq_some_iff.1 (by decide), ?_, by decide +kernel⟩
  exact (classified_read_iff set 3).1.2 fun _ _ _ => space

/-- A number in range, with a no-break space in front. -/
def noBreakInRange : Environment := .ofList [("NUM_WARMUPS", some "\u00a05")]

theorem not_classified_noBreakInRange :
    noBreakInRange.get? "NUM_WARMUPS" = some "\u00a05" ∧
      Text.Plain (Text.trim "\u00a05") 5 ∧
      noBreakInRange.read "NUM_WARMUPS" 3 =
        ⟨0, some ⟨"NUM_WARMUPS", "\u00a05", 0, .outOfRange⟩⟩ ∧
      ¬Classified "NUM_WARMUPS" "\u00a05" (noBreakInRange.read "NUM_WARMUPS" 3) := by
  have plain : Text.Plain (Text.trim "\u00a05") 5 := Text.plainWhole?_eq_some_iff.1 (by decide)
  have misread : noBreakInRange.read "NUM_WARMUPS" 3 =
      ⟨0, some ⟨"NUM_WARMUPS", "\u00a05", 0, .outOfRange⟩⟩ := by decide +kernel
  refine ⟨by decide, plain, misread, fun classified => ?_⟩
  have value := classified.value 5 plain
  rw [misread] at value
  exact absurd value (by decide)

end Environment

end BenchSettings
