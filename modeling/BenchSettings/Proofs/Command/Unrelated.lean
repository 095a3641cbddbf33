/-
BenchSettings.Proofs.Command.Unrelated — variables that a run does not look at.

The environment of a process holds much that is none of a run's business. Two
processes with the same texts for the variables of a run are the same to it
(`SeenAs`). One of these variables is no setting: it only steers the copy
engines, and is shown in one row of a table. Processes that agree on all others
are configured alike (`ConfiguredAs`), so the one variable can get no further
than that row.

`unrelated_unseen` compares the runs of two such processes, with any files and
for every command line. Before the run, other variables can be laid below or
above those of the process, like the assignments of the current directory; all
that counts is that they are the same for both. `Undisturbed` says what is left
of a difference in the one variable: nothing in the exit status and in the
errors, nothing in a document, and nothing in a table either but for a
configuration in which the runtime copies and no CSV is written.
-/
import BenchSettings.Proofs.Command.Layers

namespace BenchSettings

/-! ## 1. Agreeing environments -/

namespace Environment

/-- The settings have the same texts in two environments. -/
def ConfiguredAs (env other : Environment) : Prop :=
  ∀ name ∈ variableNames, name ≠ sdmaVariable → other.get? name = env.get? name

variable {env other : Environment}

theorem SeenAs.configuredAs (same : env.SeenAs other) : env.ConfiguredAs other := by
  intro name mem _
  exact same name mem

theorem ConfiguredAs.load_eq (same : env.ConfiguredAs other) : other.load = env.load := by
  have apart : ∀ s ∈ Setting.all, s.name ≠ sdmaVariable := by decide
  refine load_congr (fun s => ?_) (same _ (by decide) (by decide))
  exact same s.name (name_mem_variableNames s) (apart s (Setting.mem_all s))

/-- Laid between the same environments, two processes show the same where they agree. -/
theorem get?_merge_congr (below above : List Environment) {name : String}
    (mem : name ∈ variableNames) (same : other.get? name = env.get? name) :
    (merge (below ++ other :: above)).get? name = (merge (below ++ env :: above)).get? name := by
  have passed := ne_reserved_of_mem mem
  rw [get?_merge _ passed, get?_merge _ passed]
  simp only [List.reverse_append, List.reverse_cons, List.append_assoc, List.findSome?_append,
    List.findSome?_cons, List.findSome?_nil, same]

theorem SeenAs.merge (same : env.SeenAs other) (below above : List Environment) :
    (Environment.merge (below ++ env :: above)).SeenAs (.merge (below ++ other :: above)) := by
  intro name mem
  exact get?_merge_congr below above mem (same name mem)

theorem ConfiguredAs.merge (same : env.ConfiguredAs other) (below above : List Environment) :
    (Environment.merge (below ++ env :: above)).ConfiguredAs
      (.merge (below ++ other :: above)) := by
  intro name mem apart
  exact get?_merge_congr below above mem (same name mem apart)

end Environment

/-! ## 2. The row of the copy engines -/

/-- A table tells the copy engines apart only where the runtime copies, and where it is printed. -/
theorem Report.summary_eq_or (c : Configuration) (env other : Environment) :
    summary c other = summary c env ∨
      c.switch .hipCall = true ∧ c.switch .memset = false ∧ c.switch .csv = false := by
  cases csv : c.switch .csv with
  | true => exact .inl (by simp [summary, csv])
  | false =>
    cases copies : usesRuntimeCopies c with
    | false => exact .inl (by simp [summary, rows, copies])
    | true =>
      simp only [usesRuntimeCopies, Bool.and_eq_true, Bool.not_eq_true'] at copies
      exact .inr ⟨copies.1, copies.2, rfl⟩

namespace Command

/-! ## 3. Runs of agreeing processes -/

/-- What two processes that are configured alike leave. The outputs can differ where a table is
printed that shows the copy engines, and nowhere else. -/
structure Undisturbed (files : Files) (options : DisplayOptions) (process other : Environment)
    (outcome otherOutcome : Outcome) : Prop where
  exit : otherOutcome.exit = outcome.exit
  stderr : otherOutcome.stderr = outcome.stderr
  stdout : otherOutcome.stdout = outcome.stdout ∨
    options.json = false ∧ other.get? sdmaVariable ≠ process.get? sdmaVariable ∧
      ∃ values loaded, EnvFile.Gives files options.envFile values ∧
        (Environment.merge [values, process]).load = .ok loaded ∧
        (Environment.merge [values, other]).load = .ok loaded ∧
        loaded.configuration.switch .hipCall = true ∧
        loaded.configuration.switch .memset = false ∧
        loaded.configuration.switch .csv = false

/-- Without an env file that can be used, the process does not matter at all. -/
theorem display_of_error {files : Files} {options : DisplayOptions} {path : String}
    {e : EnvFile.EnvFileError} (given : options.envFile = some path)
    (fails : EnvFile.load files path = .error e) (process : Environment) :
    display files process options = .failed envFileStatus (errorMessage e.message) := by
  simp only [display, given, resolve, fails, Except.map]

theorem undisturbed_display (files : Files) (options : DisplayOptions) {process other : Environment}
    (same : process.ConfiguredAs other) :
    Undisturbed files options process other (display files process options)
      (display files other options) := by
  rcases EnvFile.gives_or_error files options.envFile with
    ⟨values, gives⟩ | ⟨path, e, given, fails⟩
  · have loads : (Environment.merge [values, other]).load =
        (Environment.merge [values, process]).load := (same.merge [values] []).load_eq
    cases loaded : (Environment.merge [values, process]).load with
    | error e =>
      rw [loaded] at loads
      simp only [display, resolve_of_gives gives, Resolved.ofEnvironment, loaded, loads]
      exact ⟨rfl, rfl, .inl rfl⟩
    | ok result =>
      rw [loaded] at loads
      simp only [display, resolve_of_gives gives, Resolved.ofEnvironment, loaded, loads]
      refine ⟨rfl, rfl, ?_⟩
      cases json : options.json with
      | true => exact .inl rfl
      | false =>
        by_cases engines : other.get? sdmaVariable = process.get? sdmaVariable
        · have shown := Environment.get?_merge_congr [values] [] (by decide) engines
          exact .inl (Report.summary_congr _ shown)
        · rcases Report.summary_eq_or result.configuration (.merge [values, process])
              (.merge [values, other]) with alike | row
          · exact .inl alike
          · exact .inr ⟨rfl, engines, values, result, gives, loaded, loads, row⟩
  · rw [display_of_error given fails, display_of_error given fails]
    exact ⟨rfl, rfl, .inl rfl⟩

/-- There is nothing left of a difference where JSON is asked for, or where the processes agree on
the copy engines too. -/
theorem Undisturbed.eq {files : Files} {options : DisplayOptions} {process other : Environment}
    {outcome otherOutcome : Outcome}
    (undisturbed : Undisturbed files options process other outcome otherOutcome)
    (hidden : options.json = true ∨ other.get? sdmaVariable = process.get? sdmaVariable) :
    otherOutcome = outcome := by
  obtain ⟨exit, stderr, stdout | ⟨table, engines, -⟩⟩ := undisturbed
  · cases outcome
    cases otherOutcome
    simp_all
  · rcases hidden with json | same
    · exact nomatch json.symm.trans table
    · exact absurd same engines

theorem run_of_seenAs (files : Files) {process other : Environment} (same : process.SeenAs other)
    (line : List String) : run files other line = run files process line := by
  unfold run
  cases Request.ofArguments line with
  | error e => rfl
  | ok request =>
    cases request with
    | display options =>
      exact (undisturbed_display files options same.configuredAs).eq (.inr (same _ (by decide)))
    | help topic => cases topic <;> rfl
    | _ => rfl

/-- Processes that have the same texts for the variables of a run leave the same, whatever their
other variables are, on every command line and with whatever files. If they differ in the variable
of the copy engines, a run that prints a configuration ends alike, with the same errors; its output
is the same as well if JSON is asked for, and else can differ only in a table for runtime copies.
All of it stays true when the same environments are laid below and above both processes. -/
theorem unrelated_unseen (files : Files) (process other : Environment) :
    (process.SeenAs other → ∀ line : List String,
      run files other line = run files process line ∧
      ∀ below above : List Environment,
        run files (.merge (below ++ other :: above)) line =
          run files (.merge (below ++ process :: above)) line) ∧
    (process.ConfiguredAs other → ∀ (line : List String) (arguments : List Argument),
      Line line arguments →
      (.json ∈ arguments → run files other line = run files process line) ∧
      Undisturbed files (optionsOf arguments) process other (run files process line)
        (run files other line) ∧
      ∀ below above : List Environment,
        let laid := Environment.merge (below ++ process :: above)
        let laidOther := Environment.merge (below ++ other :: above)
        (.json ∈ arguments → run files laidOther line = run files laid line) ∧
        Undisturbed files (optionsOf arguments) laid laidOther (run files laid line)
          (run files laidOther line)) := by
  constructor
  · intro same line
    exact ⟨run_of_seenAs files same line, fun below above =>
      run_of_seenAs files (same.merge below above) line⟩
  · intro same line arguments h
    have asked (json : .json ∈ arguments) : (optionsOf arguments).json = true :=
      decide_eq_true json
    have undisturbed {env other : Environment} (same : env.ConfiguredAs other) :
        Undisturbed files (optionsOf arguments) env other (run files env line)
          (run files other line) := by
      rw [run_line files env h, run_line files other h]
      exact undisturbed_display files (optionsOf arguments) same
    refine ⟨fun json => (undisturbed same).eq (.inl (asked json)), undisturbed same, ?_⟩
    intro below above
    have laid := undisturbed (same.merge below above)
    exact ⟨fun json => laid.eq (.inl (asked json)), laid⟩

/-- A process in which the runtime copies, with two warnings. -/
def copyingProcess : Environment := .ofList [("USE_HIP_CALL", some "1!"), ("USE_MEMSET", some "")]

/-- The same process without copy engines. -/
def blitProcess : Environment := copyingProcess.set sdmaVariable (some "0")

theorem unrelated_unseen_copyEngines :
    copyingProcess.ConfiguredAs blitProcess ∧
      (run Directory.empty.read blitProcess ["show"]).stderr =
        (run Directory.empty.read copyingProcess ["show"]).stderr ∧
      (run Directory.empty.read copyingProcess ["show"]).stderr =
        "[WARN] USE_HIP_CALL=\"1!\" is not an integer; using 1\n" ++
          "[WARN] USE_MEMSET=\"\" is not an integer; using 0\n" ∧
      (run Directory.empty.read blitProcess ["show"]).stdout ≠
        (run Directory.empty.read copyingProcess ["show"]).stdout ∧
      run Directory.empty.read blitProcess ["--json"] =
        run Directory.empty.read copyingProcess ["--json"] := by
  have same : copyingProcess.ConfiguredAs blitProcess := by
    intro name _ apart
    rw [blitProcess, Environment.get?_set, if_neg apart]
  have table : Line ["show"] [] := by
    have valid : ∀ a ∈ ([] : List Argument), a.Valid := by simp
    exact .named valid (.inl rfl)
  have json : Line ["--json"] [.json] := by
    have valid : ∀ a ∈ [Argument.json], a.Valid := by simp [Argument.Valid]
    exact .unnamed valid (by simp) (by simp)
  obtain ⟨-, alike⟩ := unrelated_unseen Directory.empty.read copyingProcess blitProcess
  obtain ⟨-, undisturbed, -⟩ := alike same _ _ table
  obtain ⟨document, -⟩ := alike same _ _ json
  exact ⟨same, undisturbed.stderr, by decide +kernel, by decide +kernel,
    document List.mem_cons_self⟩

end Command

end BenchSettings
