/-
BenchSettings.Proofs.Loading.Frame — what one variable has a part in.

Twelve variables are read alike, their numbers go into one record and their
warnings into one list. So it has to be said that none of them gets into the
place of another. `frame_of_set` gives one variable a new state, any text or
none, and compares what the two environments load: only the field of that
variable can differ, and the warnings are the same, in the same order, once
those about the variable are left out.

A warning is told to be about a variable by its name, or by the start of the
line that a user sees (`isAbout`). The two agree because the name of a setting
has no equals sign in it (`isAbout_message`).
-/
import BenchSettings.Proofs.Loading.Warnings
import BenchSettings.Proofs.Text.Lines

namespace BenchSettings

/-! ## 1. What a warning is about -/

/-- Whether the line of a warning is about a variable: it starts with the name and the quote of the
text. -/
def isAbout (name message : String) : Bool := (name ++ "=\"").toList.isPrefixOf message.toList

theorem Setting.equals_not_mem_name (s : Setting) : '=' ∉ s.name.toList := by
  have all : ∀ s ∈ Setting.all, '=' ∉ s.name.toList := by decide
  exact all s (Setting.mem_all s)

/-- The line of a warning is about the variable of the warning and about no other. -/
theorem isAbout_message {w : Warning} {s t : Setting} (named : w.name = t.name) :
    isAbout s.name w.message = decide (w.name = s.name) := by
  have line : w.message.toList = t.name.toList ++ '=' :: '"' ::
      (w.text ++ ("\" " ++ w.complaint.wording ++ "; using " ++ Text.decimal w.used)).toList := by
    simp [Warning.message, named]
  have opening : (s.name ++ "=\"").toList = s.name.toList ++ ['=', '"'] := by simp
  rw [Bool.eq_iff_iff, isAbout, List.isPrefixOf_iff_prefix, opening, line, decide_eq_true_iff,
    named]
  constructor
  · rintro ⟨rest, same⟩
    rw [List.append_assoc] at same
    obtain ⟨names, -⟩ :=
      Text.append_separator_inj s.equals_not_mem_name t.equals_not_mem_name same
    exact (String.ext names).symm
  · intro same
    rw [same]
    exact ⟨_, List.append_assoc ..⟩

namespace Environment

variable {env other : Environment} {name : String}

theorem name_of_warning {s : Setting} {w : Warning} (warned : (env.reading s).warning = some w) :
    w.name = s.name := by
  cases set : env.get? s.name with
  | none =>
    rw [reading, read_of_unset set] at warned
    cases warned
  | some text =>
    rw [reading, read_of_set set] at warned
    obtain ⟨complaint, -, rfl⟩ := Option.map_eq_some_iff.1 warned
    rfl

/-- Every warning is about one of the settings. -/
theorem exists_name_of_mem_warnings {w : Warning} (mem : w ∈ env.warnings) :
    ∃ s : Setting, w.name = s.name := by
  obtain ⟨s, -, warned⟩ := List.mem_filterMap.1 mem
  exact ⟨s, name_of_warning warned⟩

/-! ## 2. Environments that differ in one variable -/

/-- Up to the warnings about it, a variable has no part in the warnings. -/
theorem filter_warnings_congr (same : ∀ s : Setting, s.name ≠ name →
      other.get? s.name = env.get? s.name) :
    other.warnings.filter (fun w => w.name ≠ name) =
      env.warnings.filter fun w => w.name ≠ name := by
  rw [warnings, warnings, List.filter_filterMap, List.filter_filterMap]
  refine List.filterMap_congr fun s _ => ?_
  by_cases own : s.name = name
  · -- Whatever is said about the variable itself is left out on both sides.
    have leftOut : ∀ e : Environment,
        (e.reading s).warning.filter (fun w => decide (w.name ≠ name)) = none := by
      intro e
      rw [Option.filter_eq_none_iff]
      intro w warned
      simp [name_of_warning warned, own]
    rw [leftOut, leftOut]
  · rw [reading_congr (same s own)]

/-- Lines are told to be about a variable as their warnings are. -/
theorem filter_messages_eq (env : Environment) (s : Setting) :
    (env.warnings.map Warning.message).filter (fun m => !isAbout s.name m) =
      (env.warnings.filter fun w => w.name ≠ s.name).map Warning.message := by
  rw [List.filter_map]
  congr 1
  refine List.filter_congr fun w mem => ?_
  obtain ⟨t, named⟩ := exists_name_of_mem_warnings mem
  simp [isAbout_message named]

/-- A variable that is set to a new text, or unset, changes its own field of what is loaded and no
other, and no warning but those about itself. -/
theorem frame_of_set {text : Option String} {before after : Loaded} (loads : env.load = .ok before)
    (loadsAfter : (env.set name text).load = .ok after) :
    (∀ s : Switch, s.name ≠ name →
      after.configuration.switch s = before.configuration.switch s) ∧
    (∀ q : Quantity, q.name ≠ name →
      after.configuration.quantity q = before.configuration.quantity q) ∧
    (fillPatternVariable ≠ name →
      after.configuration.pattern = before.configuration.pattern ∧
      after.configuration.patternText = before.configuration.patternText) ∧
    after.warnings.filter (fun w => w.name ≠ name) =
      before.warnings.filter (fun w => w.name ≠ name) ∧
    (after.warnings.map Warning.message).filter (fun m => !isAbout name m) =
      (before.warnings.map Warning.message).filter fun m => !isAbout name m := by
  have same : ∀ query, query ≠ name → (env.set name text).get? query = env.get? query := by
    intro query apart
    rw [get?_set, if_neg apart]
  have readings : ∀ s : Setting, s.name ≠ name →
      (env.set name text).reading s = env.reading s :=
    fun s apart => reading_congr (same _ apart)
  have warned : (env.set name text).warnings.filter (fun w => w.name ≠ name) =
      env.warnings.filter fun w => w.name ≠ name :=
    filter_warnings_congr fun s apart => same s.name apart
  obtain ⟨pattern, decoded, -, rfl⟩ := (env.load_eq_ok_iff before).1 loads
  obtain ⟨patternAfter, decodedAfter, -, rfl⟩ :=
    ((env.set name text).load_eq_ok_iff after).1 loadsAfter
  refine ⟨?switches, ?quantities, ?pattern, warned, ?messages⟩
  case switches =>
    intro s apart
    exact congrArg (fun r => r.value != 0) (readings (.switch s) apart)
  case quantities =>
    intro q apart
    exact congrArg Reading.value (readings (.quantity q) apart)
  case pattern =>
    intro apart
    have spelled : (env.set name text).patternText = env.patternText := same _ apart
    rw [spelled, decoded] at decodedAfter
    exact ⟨(Except.ok.inj decodedAfter).symm, spelled⟩
  case messages =>
    by_cases setting : ∃ s : Setting, s.name = name
    · obtain ⟨s, rfl⟩ := setting
      rw [filter_messages_eq, filter_messages_eq, warned]
    · -- No reading looks at a variable that is no setting.
      have apart : ∀ s : Setting, s.name ≠ name := fun s own => setting ⟨s, own⟩
      rw [warnings_congr fun s => same s.name (apart s)]

/-- Of two warnings one changes with its variable, and the other stays. -/
theorem frame_of_set_mixed :
    ∃ before after, mixed.load = .ok before ∧
      (mixed.set "NUM_ITERATIONS" (some "5 or so")).load = .ok after ∧
      before.configuration.quantity .iterations = 2147483647 ∧
      after.configuration.quantity .iterations = 5 ∧
      after.configuration.switch .memset = before.configuration.switch .memset ∧
      after.configuration.pattern = before.configuration.pattern ∧
      before.warnings.length = 2 ∧
      after.warnings.filter (fun w => w.name ≠ "NUM_ITERATIONS") =
        before.warnings.filter (fun w => w.name ≠ "NUM_ITERATIONS") ∧
      (after.warnings.map Warning.message).filter (fun m => !isAbout "NUM_ITERATIONS" m) =
        ["USE_MEMSET=\" 12x\" is not an integer; using 12"] := by
  have loads : mixed.load =
      .ok ⟨mixed.configurationOf [0xAB, 0xAB, 0xAB, 0xAB], mixed.warnings⟩ :=
    (mixed.load_eq_ok_iff _).2 ⟨_, rfl, fun q => by cases q <;> decide +kernel, rfl⟩
  have loadsAfter : (mixed.set "NUM_ITERATIONS" (some "5 or so")).load =
      .ok ⟨(mixed.set "NUM_ITERATIONS" (some "5 or so")).configurationOf [0xAB, 0xAB, 0xAB, 0xAB],
        (mixed.set "NUM_ITERATIONS" (some "5 or so")).warnings⟩ :=
    (Environment.load_eq_ok_iff _ _).2 ⟨_, rfl, fun q => by cases q <;> decide +kernel, rfl⟩
  obtain ⟨switches, -, pattern, warned, lines⟩ := frame_of_set loads loadsAfter
  refine ⟨_, _, loads, loadsAfter, by decide +kernel, by decide +kernel,
    switches .memset (by decide), (pattern (by decide)).1, by decide +kernel, warned, ?_⟩
  rw [lines]
  decide +kernel

end Environment

end BenchSettings
