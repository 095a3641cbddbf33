/-
BenchSettings.Proofs.Text.Lines — which lines a text is made of.

Lines that hold no line feed themselves (`OneLine`) can be read off the text
that they make: off its front one by one (`unlines_cons_inj`), and off its end
as many as one knows to be there (`unlines_append_inj`). The second needs
nothing of the lines in front of them. Those may hold any number of line
feeds, and so look like lines that are not there, without a doubt being cast on
the last ones.

A reader who does not know what was written cuts the text at its line feeds
(`lines`). That gives back the lines if each holds none, and more lines than
were written if any holds one (`length_lines_unlines_eq_iff`).
-/
import BenchSettings.Text.Digits
import BenchSettings.Text.Lines
import Mathlib.Data.List.Induction

namespace BenchSettings.Text

/-! ## 1. Texts on one line -/

/-- A text that stays on its line. -/
def OneLine (s : String) : Prop := '\n' ∉ s.toList

instance (s : String) : Decidable (OneLine s) := inferInstanceAs (Decidable ('\n' ∉ s.toList))

theorem oneLine_append {s t : String} : OneLine (s ++ t) ↔ OneLine s ∧ OneLine t := by
  simp [OneLine]

theorem oneLine_decimal (n : Int) : OneLine (decimal n) := by
  have digits (k : Nat) : '\n' ∉ decimalDigits k := fun mem =>
    absurd (isDigit_of_mem_decimalDigits mem) (by decide)
  cases n with
  | ofNat k => simpa [OneLine, decimal] using digits k
  | negSucc k => simpa [OneLine, decimal] using digits (k + 1)

theorem unlines_cons (line : String) (lines : List String) :
    unlines (line :: lines) = line ++ "\n" ++ unlines lines := by
  simp [unlines]

theorem unlines_append (lines more : List String) :
    unlines (lines ++ more) = unlines lines ++ unlines more := by
  simp [unlines]

/-! ## 2. Lines off the front -/

/-- What stands before the first separator is told by the whole, and so is what follows it. -/
theorem append_separator_inj {separator : Char} {cs ds rest more : List Char}
    (plain : separator ∉ cs) (plain' : separator ∉ ds)
    (same : cs ++ separator :: rest = ds ++ separator :: more) : cs = ds ∧ rest = more := by
  induction cs generalizing ds with
  | nil =>
    cases ds with
    | nil => exact ⟨rfl, (List.cons.inj same).2⟩
    | cons d ds =>
      obtain ⟨rfl, -⟩ := List.cons.inj same
      exact absurd List.mem_cons_self plain'
  | cons c cs ih =>
    cases ds with
    | nil =>
      obtain ⟨rfl, -⟩ := List.cons.inj same
      exact absurd List.mem_cons_self plain
    | cons d ds =>
      obtain ⟨rfl, tails⟩ := List.cons.inj same
      obtain ⟨rfl, rests⟩ := ih (fun mem => plain (List.mem_cons_of_mem _ mem))
        (fun mem => plain' (List.mem_cons_of_mem _ mem)) tails
      exact ⟨rfl, rests⟩

/-- The first line of a text is told by the text, and so is what follows it. -/
theorem unlines_cons_inj {line other : String} {lines others : List String} (plain : OneLine line)
    (plain' : OneLine other) (same : unlines (line :: lines) = unlines (other :: others)) :
    line = other ∧ unlines lines = unlines others := by
  have chars := congrArg String.toList same
  simp only [unlines_cons, String.toList_append, List.append_assoc] at chars
  obtain ⟨first, rest⟩ := append_separator_inj plain plain' chars
  exact ⟨String.toList_injective first, String.toList_injective rest⟩

/-- Lines in front that are the same tell nothing apart. -/
theorem unlines_append_cancel {lines more other : List String}
    (same : unlines (lines ++ more) = unlines (lines ++ other)) : unlines more = unlines other := by
  have chars := congrArg String.toList same
  simp only [unlines_append, String.toList_append, List.append_cancel_left_eq] at chars
  exact String.toList_injective chars

theorem unlines_inj {lines others : List String} (plain : ∀ l ∈ lines, OneLine l)
    (plain' : ∀ l ∈ others, OneLine l) (same : unlines lines = unlines others) :
    lines = others := by
  induction lines generalizing others with
  | nil =>
    cases others with
    | nil => rfl
    | cons other others =>
      have chars := congrArg String.toList same
      simp [unlines] at chars
  | cons line lines ih =>
    cases others with
    | nil =>
      have chars := congrArg String.toList same
      simp [unlines] at chars
    | cons other others =>
      obtain ⟨rfl, rest⟩ :=
        unlines_cons_inj (plain _ List.mem_cons_self) (plain' _ List.mem_cons_self) same
      rw [ih (fun l mem => plain l (List.mem_cons_of_mem _ mem))
        (fun l mem => plain' l (List.mem_cons_of_mem _ mem)) rest]

/-! ## 3. Lines off the end -/

/-- There is a line feed for each line, besides those that the lines hold. -/
theorem count_unlines_eq (lines : List String) :
    (unlines lines).toList.count '\n' =
      lines.length + (lines.flatMap String.toList).count '\n' := by
  induction lines with
  | nil => rfl
  | cons line lines ih =>
    have feed : "\n".toList.count '\n' = 1 := by decide
    rw [unlines_cons, String.toList_append, String.toList_append, List.count_append,
      List.count_append, feed, ih, List.length_cons, List.flatMap_cons, List.count_append]
    omega

theorem count_unlines_eq_length_iff {lines : List String} :
    (unlines lines).toList.count '\n' = lines.length ↔ ∀ l ∈ lines, OneLine l := by
  rw [count_unlines_eq, Nat.add_eq_left, List.count_eq_zero]
  simp only [List.mem_flatMap, not_exists, not_and, OneLine]

/-- A text of lines has as many line feeds as lines. -/
theorem count_unlines {lines : List String} (plain : ∀ l ∈ lines, OneLine l) :
    (unlines lines).toList.count '\n' = lines.length :=
  count_unlines_eq_length_iff.2 plain

theorem getLast?_unlines {lines : List String} {c : Char}
    (last : (unlines lines).toList.getLast? = some c) : c = '\n' := by
  induction lines using List.reverseRecOn with
  | nil => cases last
  | append_singleton lines line _ =>
    rw [unlines_append, unlines_singleton, String.toList_append, String.toList_append,
      ← List.append_assoc] at last
    simpa using last.symm

/-- Ends with as many line feeds, each behind a text that is empty or ends in one, are the same. -/
theorem append_inj_of_count {front front' back back' : List Char}
    (ends : ∀ c ∈ front.getLast?, c = '\n') (same : front ++ back = front' ++ back')
    (count : back.count '\n' = back'.count '\n') (shorter : back.length ≤ back'.length) :
    back = back' := by
  obtain ⟨more, rfl⟩ : ∃ more, back' = more ++ back := by
    have suffix : back <:+ back' :=
      List.suffix_of_suffix_length_le ⟨front, same⟩ (List.suffix_append front' back') shorter
    obtain ⟨more, rfl⟩ := suffix
    exact ⟨more, rfl⟩
  rw [← List.append_assoc] at same
  have front_eq : front = front' ++ more := List.append_cancel_right same
  have none : '\n' ∉ more := by
    rw [List.count_append] at count
    exact List.count_eq_zero.1 (by omega)
  -- What the longer end has more would have to end in a line feed.
  cases last : more.getLast? with
  | none => rw [List.getLast?_eq_none_iff.1 last, List.nil_append]
  | some c =>
    have feed : c = '\n' := ends c (by rw [front_eq, List.getLast?_append, last]; rfl)
    exact absurd (feed ▸ List.mem_of_getLast? last) none

/-- The last lines of a text are told by the text, whatever stands on the lines before them. -/
theorem unlines_append_inj {front front' back back' : List String}
    (plain : ∀ l ∈ back, OneLine l) (plain' : ∀ l ∈ back', OneLine l)
    (length : back.length = back'.length)
    (same : unlines (front ++ back) = unlines (front' ++ back')) :
    unlines front = unlines front' ∧ back = back' := by
  have chars := congrArg String.toList same
  simp only [unlines_append, String.toList_append] at chars
  have count : (unlines back).toList.count '\n' = (unlines back').toList.count '\n' := by
    rw [count_unlines plain, count_unlines plain', length]
  have ends : (unlines back).toList = (unlines back').toList := by
    rcases Nat.le_total (unlines back).toList.length (unlines back').toList.length with le | le
    · exact append_inj_of_count (fun _ => getLast?_unlines) chars count le
    · exact (append_inj_of_count (fun _ => getLast?_unlines) chars.symm count.symm le).symm
  rw [ends] at chars
  exact ⟨String.toList_injective (List.append_cancel_right chars),
    unlines_inj plain plain' (String.toList_injective ends)⟩

/-! ## 4. The lines that a reader finds -/

/-- Characters cut at the line feeds. A line feed at the end ends the last line. -/
def linesOf : List Char → List (List Char)
  | [] => []
  | c :: cs =>
    if c = '\n' then [] :: linesOf cs
    else
      match linesOf cs with
      | [] => [[c]]
      | line :: more => (c :: line) :: more

def lines (s : String) : List String := (linesOf s.toList).map String.ofList

/-- A text is its lines, each with a line feed behind it, except perhaps the last. -/
theorem exists_linesOf (cs : List Char) : ∃ (ended : List (List Char)) (last : Option (List Char)),
    linesOf cs = ended ++ last.toList ∧
      cs = ended.flatMap (· ++ ['\n']) ++ last.toList.flatten := by
  induction cs with
  | nil => exact ⟨[], none, rfl, rfl⟩
  | cons c cs ih =>
    obtain ⟨ended, last, listed, chars⟩ := ih
    by_cases feed : c = '\n'
    · subst feed
      exact ⟨[] :: ended, last, by simp [linesOf, listed], by simpa using chars⟩
    · cases ended with
      | cons line ended =>
        exact ⟨(c :: line) :: ended, last, by simp [linesOf, feed, listed], by simpa using chars⟩
      | nil =>
        cases last with
        | none => exact ⟨[], some [c], by simp [linesOf, feed, listed], by simpa using chars⟩
        | some line =>
          exact ⟨[], some (c :: line), by simp [linesOf, feed, listed], by simpa using chars⟩

theorem linesOf_append {line : List Char} (plain : '\n' ∉ line) (rest : List Char) :
    linesOf (line ++ '\n' :: rest) = line :: linesOf rest := by
  induction line with
  | nil => simp [linesOf]
  | cons c line ih =>
    simp only [List.mem_cons, not_or] at plain
    simp [linesOf, Ne.symm plain.1, ih plain.2]

/-- Written lines that hold no line feed are found again. -/
theorem lines_unlines {written : List String} (plain : ∀ l ∈ written, OneLine l) :
    lines (unlines written) = written := by
  induction written with
  | nil => rfl
  | cons line more ih =>
    have chars : (unlines (line :: more)).toList = line.toList ++ '\n' :: (unlines more).toList := by
      simp [unlines_cons]
    have rest := ih fun l mem => plain l (List.mem_cons_of_mem _ mem)
    rw [lines, chars, linesOf_append (plain line List.mem_cons_self), List.map_cons,
      String.ofList_toList]
    exact congrArg (line :: ·) rest

/-- Where a text ends in a line feed, or is empty, there are as many lines as line feeds. -/
theorem length_linesOf {cs : List Char} (ends : ∀ c ∈ cs.getLast?, c = '\n') :
    (linesOf cs).length = cs.count '\n' := by
  induction cs with
  | nil => rfl
  | cons c cs ih =>
    cases cs with
    | nil =>
      obtain rfl : c = '\n' := ends c rfl
      rfl
    | cons d rest =>
      have later := ih (by simpa using ends)
      rw [linesOf]
      split
      · rename_i feed
        rw [List.length_cons, later, feed, List.count_cons_self]
      · rename_i other
        rw [List.count_cons_of_ne other, ← later]
        cases found : linesOf (d :: rest) with
        | nil =>
          -- A text that is not empty has a line, whatever it starts with.
          rw [linesOf] at found
          split at found
          · cases found
          · split at found <;> cases found
        | cons line more => rfl

/-- As many lines are found as were written exactly if none of them holds a line feed. -/
theorem length_lines_unlines_eq_iff (written : List String) :
    (lines (unlines written)).length = written.length ↔ ∀ l ∈ written, OneLine l := by
  rw [lines, List.length_map, length_linesOf fun _ => getLast?_unlines,
    count_unlines_eq_length_iff]

end BenchSettings.Text
