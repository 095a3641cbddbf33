/-
BenchSettings.Proofs.Command.Ending — how a run that prints a configuration
can end.

Much can be wrong with one run at a time: the env file, the fill pattern, any
number of quantities, texts that are worth a warning; and JSON may be asked for
while CSV is on. `Ending` lists the three ways a run can end and what each
leaves on the exit status, the output and the error output. `ending_of_line`
says that every run ends in one of them, for every way to read files, every
environment and every command line, and that two of the things on a line never
matter: env files before the last, and for all but the output, whether JSON is
asked for.
-/
import BenchSettings.Command.Outcome
import BenchSettings.Proofs.Command.Arguments
import BenchSettings.Proofs.Loading.Order

namespace BenchSettings

/-! ## 1. Variables from an env file -/

/-- The variables that come from the env file, none if there is no env file. -/
def EnvFile.Gives (files : Files) : Option String → Environment → Prop
  | none, values => values = .empty
  | some path, values => EnvFile.load files path = .ok values

theorem resolve_of_gives {files : Files} {envFile : Option String} {values : Environment}
    (gives : EnvFile.Gives files envFile values) (process : Environment) :
    resolve files process envFile = .ok (.ofEnvironment (.merge [values, process])) := by
  cases envFile with
  | none =>
    obtain rfl : values = .empty := gives
    rfl
  | some path =>
    have loads : EnvFile.load files path = .ok values := gives
    rw [resolve, loads]
    rfl

/-- Either the env file is unusable or it gives some variables, and not both. -/
theorem EnvFile.gives_or_error (files : Files) (envFile : Option String) :
    (∃ values, Gives files envFile values) ∨
      ∃ path e, envFile = some path ∧ EnvFile.load files path = .error e := by
  cases envFile with
  | none => exact .inl ⟨.empty, rfl⟩
  | some path =>
    cases h : EnvFile.load files path with
    | ok values => exact .inl ⟨values, h⟩
    | error e => exact .inr ⟨path, e, rfl, h⟩

namespace Command

/-! ## 2. Endings -/

/-- The ways in which a run that prints a configuration can end. -/
inductive Ending (files : Files) (process : Environment) (arguments : List Argument) :
    Outcome → Prop where
  /-- The last env file that is named cannot be used. -/
  | unusableFile {path : String} {e : EnvFile.EnvFileError} :
      lastPath? arguments = some path → EnvFile.load files path = .error e →
      Ending files process arguments ⟨4, "", "[ERROR] " ++ e.message ++ "\n"⟩
  /-- The file under the environment of the process is no configuration. -/
  | faulty {values : Environment} {e : LoadError} :
      EnvFile.Gives files (lastPath? arguments) values →
      (Environment.merge [values, process]).load = .error e →
      Ending files process arguments ⟨1, "", "[ERROR] " ++ e.message ++ "\n"⟩
  /-- It is one, and it is printed after its warnings. -/
  | printed {values : Environment} {loaded : Loaded} :
      EnvFile.Gives files (lastPath? arguments) values →
      (Environment.merge [values, process]).load = .ok loaded →
      Ending files process arguments
        ⟨0,
          if .json ∈ arguments then
            (Report.Document.ofConfiguration loaded.configuration).text ++ "\n"
          else Report.summary loaded.configuration (.merge [values, process]),
          String.join (loaded.warnings.map fun w => "[WARN] " ++ w.message ++ "\n")⟩

/-- Every run has an ending. -/
theorem exists_ending (files : Files) (process : Environment) (arguments : List Argument) :
    ∃ o, Ending files process arguments o := by
  rcases EnvFile.gives_or_error files (lastPath? arguments) with
    ⟨values, gives⟩ | ⟨path, e, last, fails⟩
  · cases loads : (Environment.merge [values, process]).load with
    | error e => exact ⟨_, .faulty gives loads⟩
    | ok loaded => exact ⟨_, .printed gives loads⟩
  · exact ⟨_, .unusableFile last fails⟩

/-- An ending is what the run leaves. -/
theorem display_of_ending {files : Files} {process : Environment} {arguments : List Argument}
    {o : Outcome} (ends : Ending files process arguments o) :
    display files process (optionsOf arguments) = o := by
  cases ends with
  | unusableFile last fails =>
    rw [display, optionsOf, last, resolve, fails]
    simp only [Except.map, Outcome.failed, Text.unlines_singleton, errorMessage, envFileStatus]
  | faulty gives loads =>
    rw [display, optionsOf, resolve_of_gives gives]
    simp only [Resolved.ofEnvironment, loads, Outcome.failed, Text.unlines_singleton, errorMessage,
      configurationStatus]
  | printed gives loads =>
    rw [display, optionsOf, resolve_of_gives gives]
    simp only [Resolved.ofEnvironment, loads, rendered, decide_eq_true_eq, Text.unlines_singleton,
      Text.unlines_map, warningMessage]

theorem display_eq_iff {files : Files} {process : Environment} {arguments : List Argument}
    {o : Outcome} :
    display files process (optionsOf arguments) = o ↔ Ending files process arguments o := by
  constructor
  · rintro rfl
    obtain ⟨o, ends⟩ := exists_ending files process arguments
    rw [display_of_ending ends]
    exact ends
  · exact display_of_ending

theorem run_line (files : Files) (process : Environment) {line : List String}
    {arguments : List Argument} (h : Line line arguments) :
    run files process line = display files process (optionsOf arguments) := by
  rw [run, ofArguments_line h]
  rfl

/-- With the same last path, runs differ at most in their output. -/
theorem display_congr (files : Files) (process : Environment) {options other : DisplayOptions}
    (same : other.envFile = options.envFile) :
    (display files process other).exit = (display files process options).exit ∧
      (display files process other).stderr = (display files process options).stderr := by
  unfold display
  rw [same]
  cases resolve files process options.envFile with
  | error e => exact ⟨rfl, rfl⟩
  | ok resolved =>
    obtain ⟨environment, result⟩ := resolved
    cases result <;> exact ⟨rfl, rfl⟩

/-- While CSV is on nothing but JSON is ever written to the output. -/
theorem stdout_of_csv {files : Files} {process values : Environment} {arguments : List Argument}
    {text : String} (gives : EnvFile.Gives files (lastPath? arguments) values)
    (noJson : .json ∉ arguments)
    (set : (Environment.merge [values, process]).get? Switch.csv.name = some text)
    (on : lenient text ≠ 0) : (display files process (optionsOf arguments)).stdout = "" := by
  cases loads : (Environment.merge [values, process]).load with
  | error e => rw [display_of_ending (.faulty gives loads)]
  | ok loaded =>
    rw [display_of_ending (.printed gives loads)]
    simp only [noJson, if_false]
    obtain ⟨pattern, -, -, rfl⟩ := (Environment.load_eq_ok_iff _ _).1 loads
    exact (Report.summary_eq_empty_iff _ _).2
      ((Environment.switchValue_eq_true_iff _ _).2 ⟨text, set, on⟩)

/-- A run that prints a configuration ends in exactly one way. Without a usable env file it fails
with status 4, whatever the environment is; with variables that are no configuration it fails with
status 1; else it succeeds, warns and prints. Two command lines with the same last env file have the
same status and the same error output, and the same output too if both or neither ask for JSON; and
while CSV is on and no JSON is asked for there is no output. -/
theorem ending_of_line (files : Files) (process : Environment) {line : List String}
    {arguments : List Argument} (h : Line line arguments) :
    (∀ o, run files process line = o ↔ Ending files process arguments o) ∧
    (∀ (other : List String) (otherArguments : List Argument), Line other otherArguments →
      lastPath? otherArguments = lastPath? arguments →
      (run files process other).exit = (run files process line).exit ∧
      (run files process other).stderr = (run files process line).stderr ∧
      ((.json ∈ otherArguments ↔ .json ∈ arguments) →
        run files process other = run files process line)) ∧
    ∀ values text, EnvFile.Gives files (lastPath? arguments) values →
      (Environment.merge [values, process]).get? "OUTPUT_TO_CSV" = some text → lenient text ≠ 0 →
      .json ∉ arguments → (run files process line).stdout = "" := by
  refine ⟨fun o => ?endings, fun other otherArguments otherLine same => ?lines,
    fun values text gives set on noJson => ?csv⟩
  case endings => rw [run_line files process h, display_eq_iff]
  case lines =>
    rw [run_line files process h, run_line files process otherLine]
    have path : (optionsOf otherArguments).envFile = (optionsOf arguments).envFile := same
    obtain ⟨exit, stderr⟩ := display_congr files process path
    refine ⟨exit, stderr, fun json => ?_⟩
    rw [optionsOf, optionsOf, same, decide_eq_decide.2 json]
  case csv =>
    rw [run_line files process h]
    exact stdout_of_csv gives noJson set on

/-- A directory with one env file in it. -/
def oneFile : Files :=
  Directory.read ⟨[("late.json",
    .file ("\x7b\"NUM_WARMUPS\":\"9x\"\x7d".toList.map fun c => UInt8.ofNat c.toNat))]⟩

/-- A process that asks for CSV. -/
def csvProcess : Environment := .ofList [("OUTPUT_TO_CSV", some "1"), ("NUM_ITERATIONS", none)]

/-- Two env files of which only the last is there, and an operand. -/
def lateFileArguments : List Argument :=
  [.envFile "gone.yaml", .envFileJoined "late.json", .operand "extra"]

theorem ending_of_line_lateFile :
    Line ["show", "--env-file", "gone.yaml", "--env-file=late.json", "extra"] lateFileArguments ∧
      Ending oneFile csvProcess lateFileArguments
        ⟨0, "", "[WARN] NUM_WARMUPS=\"9x\" is not an integer; using 9\n"⟩ ∧
      (run oneFile csvProcess ["--json", "--env-file", "late.json"]).exit = 0 ∧
      (run oneFile csvProcess ["--json", "--env-file", "late.json"]).stderr =
        "[WARN] NUM_WARMUPS=\"9x\" is not an integer; using 9\n" := by
  have line : Line ["show", "--env-file", "gone.yaml", "--env-file=late.json", "extra"]
      lateFileArguments := by
    have valid : ∀ a ∈ lateFileArguments, a.Valid := by
      simp only [lateFileArguments, List.forall_mem_cons]
      exact ⟨by rfl, trivial, by rfl, fun _ none => nomatch none⟩
    exact .named valid (.inl rfl)
  have jsonLine : Line ["--json", "--env-file", "late.json"] [.json, .envFile "late.json"] := by
    have valid : ∀ a ∈ [Argument.json, .envFile "late.json"], a.Valid := by
      simp only [List.forall_mem_cons]
      exact ⟨trivial, by rfl, fun _ none => nomatch none⟩
    refine .unnamed valid ?_ ?_
    · intro path mem
      obtain rfl : path = "late.json" := by simpa using mem
      rfl
    · intro text first
      cases first
  obtain ⟨endings, lines, -⟩ := ending_of_line oneFile csvProcess line
  have ends : run oneFile csvProcess
      ["show", "--env-file", "gone.yaml", "--env-file=late.json", "extra"] =
        ⟨0, "", "[WARN] NUM_WARMUPS=\"9x\" is not an integer; using 9\n"⟩ := by decide +kernel
  obtain ⟨exit, stderr, -⟩ := lines _ _ jsonLine rfl
  rw [ends] at exit stderr
  exact ⟨line, (endings _).1 ends, exit, stderr⟩

end Command

end BenchSettings
