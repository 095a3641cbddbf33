/-
BenchSettings.Proofs.Command.Diagnostics — the lines of the error output.

Each message starts with a tag, so that whoever looks for warnings or errors
can take the error output line by line. A message also quotes what the
environment says, as it stands: a warning the whole text of a variable, the
error about a fill pattern one unit of it. A line feed among these tears the
message in two, and the second part has no tag, or any tag that the text wants
it to have.

`stderr_tagged_iff` says that nothing else can go wrong. With status 0 the
error output has one tagged line for each warning unless a text with a line
feed is quoted by one; with status 1 it has one tagged line unless a line feed
is the first unit of the fill pattern that is no digit. A text with line feeds
that is a whole number all the same is not quoted, and does no harm.
-/
import BenchSettings.Proofs.Command.Ending
import BenchSettings.Proofs.Fill.Grammar
import BenchSettings.Proofs.Loading.Warnings
import BenchSettings.Proofs.Text.Lines

namespace BenchSettings

/-! ## 1. Messages on one line -/

namespace Text

theorem showUnit_eq_feed_iff (unit : Nat) : showUnit unit = '\n' ↔ unit = '\n'.toNat := by
  constructor
  · intro shown
    unfold showUnit at shown
    split at shown
    · exact absurd shown (by decide)
    · by_cases valid : unit.isValidChar
      · rw [Char.ofNat, dif_pos valid] at shown
        exact congrArg Char.toNat shown
      · rw [Char.ofNat, dif_neg valid] at shown
        exact absurd shown (by decide)
  · rintro rfl
    rfl

end Text

open Text (OneLine oneLine_append)

/-- A warning stays on its line if the text that it quotes does. -/
theorem Warning.oneLine_message {w : Warning} (name : OneLine w.name) :
    OneLine w.message ↔ OneLine w.text := by
  have words : OneLine "=\"" ∧ OneLine "\" " ∧ OneLine "; using " := by decide
  have wording : OneLine w.complaint.wording := by cases w.complaint <;> decide
  have used := Text.oneLine_decimal w.used
  simp [Warning.message, oneLine_append, name, words, wording, used]

theorem PatternError.oneLine_message (e : PatternError) :
    OneLine e.message ↔ e ≠ .badDigit '\n'.toNat := by
  cases e with
  | oddLength =>
    have plain : OneLine PatternError.oddLength.message := by decide +kernel
    simp [plain]
  | badDigit unit =>
    have words : OneLine "FILL_PATTERN must contain only hex digits (0-9/a-f/A-F), not '" ∧
        OneLine "'" := by decide +kernel
    have quoted : OneLine (String.singleton (Text.showUnit unit)) ↔ Text.showUnit unit ≠ '\n' := by
      simp [OneLine, eq_comm]
    have parts : OneLine (PatternError.badDigit unit).message ↔
        OneLine (String.singleton (Text.showUnit unit)) :=
      ⟨fun whole => (oneLine_append.1 (oneLine_append.1 whole).1).2,
        fun unit => oneLine_append.2 ⟨oneLine_append.2 ⟨words.1, unit⟩, words.2⟩⟩
    rw [parts, quoted, ne_eq, Text.showUnit_eq_feed_iff, ne_eq, PatternError.badDigit.injEq]

/-! ## 2. What is quoted -/

namespace Environment

/-- A warning quotes a text with a line feed: a variable is set to one, and the text, trimmed, is not
the number that is used. -/
def WarnsAcrossLines (env : Environment) : Prop :=
  ∃ (s : Setting) (text : String), env.get? s.name = some text ∧ ¬OneLine text ∧
    ¬Text.Plain (Text.trim text) (env.used s)

/-- The error about the fill pattern quotes a line feed: the pattern is of even length, and its first
unit that is no hex digit is one. -/
def PatternBreaksAtFeed (env : Environment) : Prop :=
  ∃ (text : String) (before after : List Nat), env.get? fillPatternVariable = some text ∧
    Text.units text = before ++ '\n'.toNat :: after ∧ (Text.units text).length % 2 = 0 ∧
    ∀ unit ∈ before, unit ∈ Text.Hex.digitUnits

variable {env : Environment}

theorem oneLine_name {w : Warning} (mem : w ∈ env.warnings) : OneLine w.name := by
  have names : ∀ s ∈ Setting.all, OneLine s.name := by decide
  obtain ⟨s, -, warned⟩ := List.mem_filterMap.1 mem
  have part := env.contributes_reading s
  rw [warned] at part
  cases part
  exact names s (Setting.mem_all s)

/-- The warnings of an environment stay on their lines unless a text with a line feed is quoted. -/
theorem oneLine_warnings_iff :
    (∀ w ∈ env.warnings, OneLine w.message) ↔ ¬env.WarnsAcrossLines := by
  constructor
  · rintro plain ⟨s, text, set, feed, other⟩
    have part := env.contributes_reading s
    cases warned : (env.reading s).warning with
    | none =>
      -- Without a warning the text would be unset, or the number that is used.
      rw [warned] at part
      cases part with
      | unset unset => exact nomatch set.symm.trans unset
      | denoted set' denoted =>
        obtain rfl := Option.some.inj (set.symm.trans set')
        exact other denoted
    | some w =>
      have mem : w ∈ env.warnings := List.mem_filterMap.2 ⟨s, Setting.mem_all s, warned⟩
      have quoted := (Warning.oneLine_message (oneLine_name mem)).1 (plain w mem)
      rw [warned] at part
      cases part with
      | warned complaint set' _ =>
        obtain rfl := Option.some.inj (set.symm.trans set')
        exact feed quoted
  · intro none w mem
    rw [Warning.oneLine_message (oneLine_name mem)]
    by_contra feed
    obtain ⟨s, -, warned⟩ := List.mem_filterMap.1 mem
    have part := env.contributes_reading s
    rw [warned] at part
    cases part with
    | warned complaint set other => exact none ⟨s, _, set, feed, other⟩

/-- The pattern is said to be broken at a line feed exactly if it is. -/
theorem decode_eq_badFeed_iff :
    FillPattern.decode env.patternText = .error (.badDigit '\n'.toNat) ↔
      env.PatternBreaksAtFeed := by
  have other : '\n'.toNat ∉ Text.Hex.digitUnits := by decide
  constructor
  · intro fails
    cases set : env.get? fillPatternVariable with
    | none =>
      rw [patternText, set] at fails
      cases fails
    | some text =>
      rw [patternText, set] at fails
      have decided := FillPattern.decided_units text
      have even : (Text.units text).length % 2 = 0 := by
        by_contra odd
        simp [FillPattern.decode, show (Text.units text).length % 2 = 1 by omega] at fails
      have misspelled : ∃ unit ∈ Text.units text, unit ∉ Text.Hex.digitUnits := by
        by_contra digits
        obtain ⟨bytes, decoded⟩ := decided.accepted.2 ⟨even, by simpa using digits⟩
        rw [decoded] at fails
        cases fails
      obtain ⟨before, unit, after, parts, digits, stray⟩ :=
        FillPattern.exists_first_misspelled misspelled
      have named := FillPattern.decode_of_misspelled even parts digits stray
      obtain rfl : '\n'.toNat = unit := by
        simpa using fails.symm.trans named
      exact ⟨text, before, after, set, parts, even, digits⟩
  · rintro ⟨text, before, after, set, parts, even, digits⟩
    rw [patternText, set]
    exact FillPattern.decode_of_misspelled even parts digits other

/-- An error stays on its line unless it quotes a line feed. -/
theorem oneLine_error_iff {e : LoadError} (fails : env.load = .error e) :
    OneLine e.message ↔ ¬env.PatternBreaksAtFeed := by
  have rules : ∀ q ∈ Quantity.all, OneLine q.ruleText := by decide +kernel
  rw [← decode_eq_badFeed_iff]
  cases decoded : FillPattern.decode env.patternText with
  | error p =>
    rw [load_of_pattern_error decoded] at fails
    cases fails
    rw [Except.error.injEq]
    exact p.oneLine_message
  | ok pattern =>
    rcases env.obeys_or_firstBreach with obeys | ⟨q, breach⟩
    · rw [load_of_obeys decoded obeys] at fails
      cases fails
    · rw [load_of_firstBreach decoded breach] at fails
      cases fails
      exact iff_of_true (rules q (Quantity.mem_all q)) fun same => nomatch same

end Environment

/-! ## 3. The error output -/

namespace Command

/-- A text of so many lines, each of which starts with a tag. -/
def Tagged (tag : String) (count : Nat) (text : String) : Prop :=
  (Text.lines text).length = count ∧ ∀ line ∈ Text.lines text, tag.toList <+: line.toList

/-- Tagged messages make tagged lines, one for each, unless one of them holds a line feed. -/
theorem tagged_unlines_iff {tag : String} (plain : OneLine tag) (messages : List String) :
    Tagged tag messages.length (Text.unlines (messages.map (tag ++ ·))) ↔
      ∀ message ∈ messages, OneLine message := by
  have one : (∀ line ∈ messages.map (tag ++ ·), OneLine line) ↔
      ∀ message ∈ messages, OneLine message := by
    simp [oneLine_append, plain]
  have count := Text.length_lines_unlines_eq_iff (messages.map (tag ++ ·))
  rw [List.length_map, one] at count
  constructor
  · exact fun tagged => count.1 tagged.1
  · intro each
    refine ⟨count.2 each, ?_⟩
    rw [Text.lines_unlines (one.2 each), List.forall_mem_map]
    simp

/-- The error output of a run that prints a configuration. With status 0 it has one line with the
tag of a warning for each warning, unless a warning quotes a line feed, and with status 1 it has one
line with the tag of an error, unless the error quotes a line feed. -/
theorem stderr_tagged_iff (files : Files) (process : Environment) {line : List String}
    {arguments : List Argument} (h : Line line arguments) :
    ((run files process line).exit = 0 →
      ∃ values loaded, EnvFile.Gives files (lastPath? arguments) values ∧
        (Environment.merge [values, process]).load = .ok loaded ∧
        (Tagged "[WARN] " loaded.warnings.length (run files process line).stderr ↔
          ¬(Environment.merge [values, process]).WarnsAcrossLines)) ∧
    ((run files process line).exit = 1 →
      ∃ values e, EnvFile.Gives files (lastPath? arguments) values ∧
        (Environment.merge [values, process]).load = .error e ∧
        (Tagged "[ERROR] " 1 (run files process line).stderr ↔
          ¬(Environment.merge [values, process]).PatternBreaksAtFeed)) := by
  have tags : OneLine "[WARN] " ∧ OneLine "[ERROR] " := by decide
  rw [run_line files process h]
  obtain ⟨o, ends⟩ := exists_ending files process arguments
  rw [display_of_ending ends]
  cases ends with
  | unusableFile last fails => exact ⟨fun status => (nomatch status), fun status => nomatch status⟩
  | @faulty values e gives fails =>
    refine ⟨fun status => (nomatch status), fun _ => ⟨values, e, gives, fails, ?_⟩⟩
    rw [← Environment.oneLine_error_iff fails]
    have tagged := tagged_unlines_iff tags.2 [e.message]
    simpa [Text.unlines_singleton] using tagged
  | @printed values loaded gives loads =>
    refine ⟨fun _ => ⟨values, loaded, gives, loads, ?_⟩, fun status => nomatch status⟩
    obtain ⟨pattern, -, -, rfl⟩ := (Environment.load_eq_ok_iff _ _).1 loads
    rw [← Environment.oneLine_warnings_iff]
    have tagged := tagged_unlines_iff tags.1
      ((Environment.merge [values, process]).warnings.map Warning.message)
    rw [List.map_map, List.length_map, List.forall_mem_map, Text.unlines_map] at tagged
    exact tagged

/-- The subcommand on its own. -/
theorem line_display : Line ["show"] [] :=
  @Line.named [] [] (fun _ mem => (nomatch mem)) (.inl rfl)

/-- No files at all. -/
def noFiles : Files := Directory.empty.read

/-- A text of three lines that is a whole number, and a text of one line that is none. -/
def paddedProcess : Environment :=
  .ofList [("NUM_WARMUPS", some "\n7\n"), ("USE_MEMSET", some "no")]

theorem stderr_tagged_iff_padded :
    Line ["show"] [] ∧ (run noFiles paddedProcess ["show"]).exit = 0 ∧
      ∃ values loaded, EnvFile.Gives noFiles none values ∧
        (Environment.merge [values, paddedProcess]).load = .ok loaded ∧
        loaded.configuration.quantity .warmups = 7 ∧
        Tagged "[WARN] " loaded.warnings.length (run noFiles paddedProcess ["show"]).stderr := by
  have succeeds : (run noFiles paddedProcess ["show"]).exit = 0 := by decide +kernel
  obtain ⟨values, loaded, gives, loads, tagged⟩ :=
    (stderr_tagged_iff noFiles paddedProcess line_display).1 succeeds
  obtain rfl : values = .empty := gives
  refine ⟨line_display, succeeds, _, loaded, rfl, loads, ?_, tagged.2 ?_⟩
  · have seven : (Environment.merge [.empty, paddedProcess]).quantityValue .warmups = 7 := by
      decide +kernel
    obtain ⟨pattern, -, -, rfl⟩ := (Environment.load_eq_ok_iff _ _).1 loads
    simpa only [Environment.configurationOf] using seven
  · rw [← Environment.oneLine_warnings_iff]
    decide +kernel

/-- A text whose second line looks like an error. -/
def forgingProcess : Environment :=
  .ofList [("NUM_WARMUPS", some "3\n[ERROR] x"), ("OUTPUT_TO_CSV", some "1")]

/-- One warning, and two lines with different tags. -/
theorem untagged_line_forging :
    Line ["show"] [] ∧ (run noFiles forgingProcess ["show"]).exit = 0 ∧
      (∃ loaded, (Environment.merge [.empty, forgingProcess]).load = .ok loaded ∧
        loaded.warnings.length = 1) ∧
      Text.lines (run noFiles forgingProcess ["show"]).stderr =
        ["[WARN] NUM_WARMUPS=\"3", "[ERROR] x\" is not an integer; using 3"] ∧
      ¬Tagged "[WARN] " 1 (run noFiles forgingProcess ["show"]).stderr := by
  have lines : Text.lines (run noFiles forgingProcess ["show"]).stderr =
      ["[WARN] NUM_WARMUPS=\"3", "[ERROR] x\" is not an integer; using 3"] := by decide +kernel
  refine ⟨line_display, by decide +kernel, ?_, lines, ?_⟩
  · exact ⟨_, ((Environment.merge [.empty, forgingProcess]).load_eq_ok_iff _).2
      ⟨[], rfl, fun q => by cases q <;> decide +kernel, rfl⟩, by decide +kernel⟩
  · rintro ⟨count, -⟩
    rw [lines] at count
    exact absurd count (by decide)

end Command

end BenchSettings
