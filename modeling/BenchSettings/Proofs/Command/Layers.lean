/-
BenchSettings.Proofs.Command.Layers — which layer a variable comes from.

A variable can be set in three places: the environment of the process, the
file of assignments in the current directory, and an env file. They are put
together by two mechanisms that work in opposite directions. The assignments
only add what the process lacks, and the env file is laid below the result.
`layers_seen` says what comes of it: of each variable the loader and the table
see the text in the process, else that of the assignments, else that of the
env file, and a text that is empty is a text. A whole run with its layers is
the run of a process that has these texts and no files.

Without an env file the environment stays as it is, up to the states in it
that say nothing. One name is lost as well, the reserved one
(`reserved_not_passed_on`).
-/
import BenchSettings.Proofs.Command.Ending
import BenchSettings.Proofs.Environment.Merging
import BenchSettings.Proofs.Loading.Seen

namespace BenchSettings

/-! ## 1. What a run sees -/

theorem ne_reserved_of_mem {name : String} (mem : name ∈ variableNames) :
    name ≠ Named.reserved := by
  have all : ∀ name ∈ variableNames, name ≠ Named.reserved := by decide
  exact all name mem

theorem name_mem_variableNames (s : Setting) : s.name ∈ variableNames :=
  List.mem_append_left _ (List.mem_map_of_mem (Setting.mem_all s))

/-- The variables of a run in two environments have the same texts. -/
def Environment.SeenAs (env other : Environment) : Prop :=
  ∀ name ∈ variableNames, other.get? name = env.get? name

namespace Environment.SeenAs

variable {env other : Environment} (same : env.SeenAs other)

include same

theorem load_eq : other.load = env.load := by
  exact load_congr (fun s => same _ (name_mem_variableNames s)) (same _ (by decide))

theorem summary_eq (c : Configuration) : Report.summary c other = Report.summary c env :=
  Report.summary_congr c (same _ (by decide))

end Environment.SeenAs

theorem Environment.SeenAs.trans {env other third : Environment} (same : env.SeenAs other)
    (more : other.SeenAs third) : env.SeenAs third :=
  fun name mem => (more name mem).trans (same name mem)

/-- Laid over nothing, an environment is seen as it is. -/
theorem Environment.seenAs_merge_empty (env : Environment) :
    env.SeenAs (.merge [.empty, env]) := by
  intro name mem
  rw [get?_merge_pair _ _ (ne_reserved_of_mem mem), get?_empty, Option.or_none]

/-- A run with an env file is a run without one, of a process that is seen as the two together. -/
theorem Command.display_of_seenAs {files : Files} {process values seen : Environment}
    {options : DisplayOptions} (gives : EnvFile.Gives files options.envFile values)
    (same : (Environment.merge [values, process]).SeenAs seen) :
    display files process options = display files seen ⟨options.json, none⟩ := by
  have alone : EnvFile.Gives files none .empty := rfl
  have alike := same.trans seen.seenAs_merge_empty
  simp only [display, resolve_of_gives gives, resolve_of_gives alone, Resolved.ofEnvironment,
    alike.load_eq]
  cases (Environment.merge [values, process]).load with
  | error e => rfl
  | ok loaded => simp only [rendered, alike.summary_eq]

/-! ## 2. Three layers -/

/-- A process with assignments and with variables from an env file. The loader and the table see of
each variable the text of the uppermost layer that has one, and the default where there is none; a
run with these layers is a run of any process that has these texts, without files. Without an env
file an environment loads as it is, and is kept but for the variables that are not set and the
reserved name. -/
theorem layers_seen (files : Files) (process : Environment) {envFile : Option String}
    {values : Environment} (gives : EnvFile.Gives files envFile values) :
    let assigned := Assignments.environment files
    (∃ r, resolve files (.merge [assigned, process]) envFile = .ok r ∧
      (∀ name ∈ variableNames, r.environment.get? name =
        (process.get? name).or ((assigned.get? name).or (values.get? name))) ∧
      (∀ s : Setting, r.environment.get? s.name = none →
        r.environment.reading s = ⟨s.default, none⟩) ∧
      ∀ seen : Environment, r.environment.SeenAs seen →
        r.result = seen.load ∧
        (∀ c, Report.summary c r.environment = Report.summary c seen) ∧
        ∀ (line : List String) (arguments : List Command.Argument),
          Command.Line line arguments → Command.lastPath? arguments = envFile →
          Command.runInDirectory files process line =
            Command.display files seen ⟨decide (.json ∈ arguments), none⟩) ∧
    ∀ env : Environment, ∃ merged, resolve files env none = .ok ⟨merged, env.load⟩ ∧
      merged.entries = env.entries.filter fun (name, text) =>
        text.isSome && name != Named.reserved := by
  intro assigned
  refine ⟨⟨_, resolve_of_gives gives _, ?texts, ?defaults, ?runs⟩, ?alone⟩
  case texts =>
    intro name mem
    have passed := ne_reserved_of_mem mem
    simp only [Resolved.ofEnvironment]
    rw [Environment.get?_merge_pair _ _ passed, Environment.get?_merge_pair _ _ passed,
      Option.or_assoc]
  case defaults =>
    intro s unset
    exact Environment.read_of_unset unset _
  case runs =>
    intro seen same
    refine ⟨same.load_eq.symm, fun c => (same.summary_eq c).symm, fun line arguments h last => ?_⟩
    subst last
    rw [Command.runInDirectory, Command.run_line _ _ h]
    have given : EnvFile.Gives files (Command.optionsOf arguments).envFile _ := gives
    exact Command.display_of_seenAs given same
  case alone =>
    intro env
    have alone : EnvFile.Gives files none .empty := rfl
    refine ⟨.merge [.empty, env], ?_, env.entries_merge_empty⟩
    rw [resolve_of_gives alone, Resolved.ofEnvironment, env.seenAs_merge_empty.load_eq]

/-- A process with a variable of the reserved name. -/
def reservedOnly : Environment := .ofList [("__proto__", some "x")]

/-- An environment that sets the reserved name is not kept as far as it is set. -/
theorem reserved_not_passed_on :
    reservedOnly.entries = [("__proto__", some "x")] ∧
      ¬∃ r, resolve Directory.empty.read reservedOnly none = .ok r ∧
        r.environment.entries = reservedOnly.entries.filter fun (_, text) => text.isSome := by
  refine ⟨rfl, ?_⟩
  rintro ⟨r, resolved, kept⟩
  obtain rfl := Except.ok.inj resolved
  exact absurd kept (by decide)

/-- A directory with assignments and an env file. -/
def twoFiles : Files :=
  Directory.read ⟨[
    (".env", .file ("NUM_WARMUPS=5\nNUM_ITERATIONS=6".toList.map fun c => UInt8.ofNat c.toNat)),
    ("late.json", .file
      ("\x7b\"NUM_ITERATIONS\":7,\"SAMPLING_FACTOR\":8\x7d".toList.map fun c =>
        UInt8.ofNat c.toNat))]⟩

/-- A process that sets one variable, to nothing. -/
def blankProcess : Environment := .ofList [("NUM_WARMUPS", some "")]

theorem layers_seen_twoFiles :
    ∃ values, EnvFile.Gives twoFiles (some "late.json") values ∧
      ∃ r, resolve twoFiles (.merge [Assignments.environment twoFiles, blankProcess])
          (some "late.json") = .ok r ∧
        r.environment.get? "NUM_WARMUPS" = some "" ∧
        r.environment.get? "NUM_ITERATIONS" = some "6" ∧
        r.environment.get? "SAMPLING_FACTOR" = some "8" ∧
        r.environment.get? "BYTE_OFFSET" = none := by
  obtain ⟨values, loads⟩ : ∃ values, EnvFile.load twoFiles "late.json" = .ok values := by
    have succeeds : (EnvFile.load twoFiles "late.json").isOk = true := by decide +kernel
    cases h : EnvFile.load twoFiles "late.json" with
    | ok values => exact ⟨values, rfl⟩
    | error e =>
      rw [h] at succeeds
      cases succeeds
  have given (name : String) : values.get? name =
      (EnvFile.load twoFiles "late.json").toOption.bind fun found => found.get? name := by
    rw [loads]
    rfl
  have gives : EnvFile.Gives twoFiles (some "late.json") values := loads
  obtain ⟨⟨r, resolved, texts, -⟩, -⟩ := layers_seen twoFiles blankProcess gives
  refine ⟨values, gives, r, resolved, ?_⟩
  rw [texts _ (by decide), texts _ (by decide), texts _ (by decide), texts _ (by decide), given,
    given, given, given]
  decide +kernel

end BenchSettings
