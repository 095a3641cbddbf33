/-
BenchSettings.Proofs.Command.Arguments — the argument lists that print a
configuration.

An argument list of the subcommand that prints the configuration is made of
options and operands (`Argument`) in any number and order. `Line` relates such
a list, as it stands on a command line, to its arguments: with the name of the
subcommand first, or without it as long as nothing in the list means something
else to the program. The program looks at a line three times, for a question,
for the name of a subcommand and for the options; `ofArguments_line` says that
the outcome is what the arguments say, whether JSON is asked for at all and the
path that is given last.

A path is whatever follows its option, with one exception: the program answers
a question for its version before it reads options, so a path that looks like
that question (`asksVersion`) is none. After `--` no argument asks or chooses
anything.
-/
import BenchSettings.Command.Request

namespace BenchSettings.Command

/-! ## 1. Arguments -/

/-- An argument of the subcommand that prints the configuration. -/
inductive Argument where
  /-- The option that asks for JSON. -/
  | json
  /-- The option for the env file, and its path after it. -/
  | envFile (path : String)
  /-- Option and path in one, with an equals sign between them. -/
  | envFileJoined (path : String)
  /-- Anything that does not look like an option. -/
  | operand (text : String)
  deriving DecidableEq

namespace Argument

/-- An argument as it stands on a line. -/
def written : Argument → List String
  | json => [Flag.json.name]
  | envFile path => [Flag.envFile.name, path]
  | envFileJoined path => [Flag.envFile.name ++ "=" ++ path]
  | operand text => [text]

/-- The text of an argument can be what the argument is. -/
def Valid : Argument → Prop
  | json | envFileJoined _ => True
  | envFile path => asksVersion path = false
  | operand text => isOption text = false

def path? : Argument → Option String
  | envFile path | envFileJoined path => some path
  | json | operand _ => none

end Argument

/-- Of all paths that are given, the last. -/
def lastPath? (arguments : List Argument) : Option String :=
  (arguments.filterMap Argument.path?).getLast?

/-- What arguments ask for. -/
def optionsOf (arguments : List Argument) : DisplayOptions :=
  ⟨decide (.json ∈ arguments), lastPath? arguments⟩

/-- What may stand behind all options and operands: nothing, or `--` and anything. -/
def Ended (tail : List String) : Prop := tail = [] ∨ ∃ more, tail = "--" :: more

/-- The command lines that print the configuration, with their arguments. -/
inductive Line : List String → List Argument → Prop where
  | named {arguments : List Argument} {tail : List String} :
      (∀ a ∈ arguments, a.Valid) → Ended tail →
      Line (Subcommand.display.name :: (arguments.flatMap Argument.written ++ tail)) arguments
  /-- Without the name, the first operand may not be a name, and no path may ask for help. -/
  | unnamed {arguments : List Argument} :
      (∀ a ∈ arguments, a.Valid) →
      (∀ path, .envFile path ∈ arguments → asksHelp path = false) →
      (∀ text, arguments.head? = some (.operand text) →
        Subcommand.ofName? text = none ∧ text ≠ "help") →
      Line (arguments.flatMap Argument.written) arguments

/-! ## 2. What looks like an option -/

theorem isOption_of_asksVersion {text : String} (h : asksVersion text = true) :
    isOption text = true := by
  simp only [asksVersion, Bool.or_eq_true, beq_iff_eq] at h
  rcases h with rfl | short
  · decide
  · obtain ⟨rest, hrest⟩ := List.isPrefixOf_iff_prefix.1 short
    unfold isOption
    rw [← hrest]
    rfl

theorem isOption_of_asksHelp {text : String} (h : asksHelp text = true) : isOption text = true := by
  simp only [asksHelp, Bool.or_eq_true, beq_iff_eq] at h
  rcases h with rfl | rfl <;> decide

theorem isOption_of_joinedPath? {text path : String} (h : joinedPath? text = some path) :
    isOption text = true := by
  simp only [joinedPath?] at h
  split at h
  · rename_i start
    obtain ⟨rest, hrest⟩ := List.isPrefixOf_iff_prefix.1 start
    unfold isOption
    rw [← hrest]
    rfl
  · cases h

theorem joinedPath?_append (path : String) :
    joinedPath? (Flag.envFile.name ++ "=" ++ path) = some path := by
  have start : (Flag.envFile.name ++ "=").toList.isPrefixOf
      (Flag.envFile.name ++ "=" ++ path).toList = true := by
    rw [List.isPrefixOf_iff_prefix, String.toList_append (s := Flag.envFile.name ++ "=")]
    exact List.prefix_append _ _
  simp only [joinedPath?, start, if_true]
  rw [String.toList_append (s := Flag.envFile.name ++ "="), List.drop_left, String.ofList_toList]

theorem toList_joined (path : String) :
    (Flag.envFile.name ++ "=" ++ path).toList = "--env-file=".toList ++ path.toList := by
  rw [String.toList_append]
  rfl

/-- The option with its path in one is no other argument. -/
theorem joined_ne {path text : String} (short : text.toList.length < 11) :
    Flag.envFile.name ++ "=" ++ path ≠ text := by
  intro same
  have long := congrArg (fun s => s.toList.length) same
  rw [toList_joined, List.length_append] at long
  have eleven : "--env-file=".toList.length = 11 := by decide
  omega

theorem asksVersion_joined (path : String) :
    asksVersion (Flag.envFile.name ++ "=" ++ path) = false := by
  have word : (Flag.envFile.name ++ "=" ++ path == "--version") = false :=
    beq_false_of_ne (joined_ne (by decide))
  have short : "-V".toList.isPrefixOf (Flag.envFile.name ++ "=" ++ path).toList = false := by
    rw [toList_joined]
    rfl
  rw [asksVersion, word, short]
  rfl

theorem asksHelp_joined (path : String) :
    asksHelp (Flag.envFile.name ++ "=" ++ path) = false := by
  rw [asksHelp, beq_false_of_ne (joined_ne (by decide)), beq_false_of_ne (joined_ne (by decide))]
  rfl

/-- No word of a valid argument is a question, unless the path behind an option asks for help. -/
theorem asks_of_mem_written {a : Argument} (valid : a.Valid) {word : String}
    (mem : word ∈ a.written) :
    asksVersion word = false ∧ (asksHelp word = false ∨ a = .envFile word) := by
  cases a with
  | json =>
    obtain rfl := List.mem_singleton.1 mem
    exact ⟨by decide, .inl (by decide)⟩
  | envFile path =>
    rcases List.mem_cons.1 mem with rfl | mem
    · exact ⟨by decide, .inl (by decide)⟩
    · obtain rfl := List.mem_singleton.1 mem
      exact ⟨valid, .inr rfl⟩
  | envFileJoined path =>
    obtain rfl := List.mem_singleton.1 mem
    exact ⟨asksVersion_joined path, .inl (asksHelp_joined path)⟩
  | operand text =>
    obtain rfl := List.mem_singleton.1 mem
    have plain : ¬isOption word = true := Bool.eq_false_iff.1 valid
    exact ⟨Bool.eq_false_iff.2 fun asks => plain (isOption_of_asksVersion asks),
      .inl (Bool.eq_false_iff.2 fun asks => plain (isOption_of_asksHelp asks))⟩

/-! ## 3. Reading the options -/

/-- Options with one more argument. -/
def given (options : DisplayOptions) : Argument → DisplayOptions
  | .json => { options with json := true }
  | .envFile path | .envFileJoined path => { options with envFile := some path }
  | .operand _ => options

/-- Reading takes one argument off the line. -/
theorem readOptions_written {a : Argument} (valid : a.Valid) (options : DisplayOptions)
    (rest : List String) :
    readOptions .display options [] (a.written ++ rest) =
      readOptions .display (given options a) [] rest := by
  cases a with
  | json => rw [Argument.written, List.singleton_append, readOptions.eq_def]; rfl
  | envFile path =>
    rw [Argument.written, List.cons_append, List.singleton_append, readOptions.eq_def]
    rfl
  | envFileJoined path =>
    have unknown : Subcommand.display.flags.find?
        (fun f => f.name == Flag.envFile.name ++ "=" ++ path) = none := by
      rw [List.find?_eq_none]
      intro f _ same
      exact joined_ne (by cases f <;> decide) (beq_iff_eq.1 same).symm
    rw [Argument.written, List.singleton_append, readOptions.eq_def]
    simp only [joined_ne (show "--".toList.length < 11 by decide), if_false, unknown,
      joinedPath?_append, given]
    rfl
  | operand text =>
    have plain : ¬isOption text = true := Bool.eq_false_iff.1 valid
    have unended : text ≠ "--" := by
      rintro rfl
      exact plain rfl
    have unknown : Subcommand.display.flags.find? (fun f => f.name == text) = none := by
      rw [List.find?_eq_none]
      intro f _ same
      obtain rfl := beq_iff_eq.1 same
      exact plain (by cases f <;> decide)
    have unjoined : joinedPath? text = none :=
      Option.eq_none_iff_forall_ne_some.2 fun _ joined => plain (isOption_of_joinedPath? joined)
    rw [Argument.written, List.singleton_append, readOptions.eq_def]
    simp only [unended, if_false, unknown, unjoined, plain, ite_self, given, Bool.false_eq_true]

/-- Reading takes all arguments, one after the other, up to what ends them. -/
theorem readOptions_flatMap_written {arguments : List Argument} (valid : ∀ a ∈ arguments, a.Valid)
    (options : DisplayOptions) {tail : List String} (ended : Ended tail) :
    readOptions .display options [] (arguments.flatMap Argument.written ++ tail) =
      .ok (arguments.foldl given options, []) := by
  induction arguments generalizing options with
  | nil =>
    rcases ended with rfl | ⟨more, rfl⟩
    · rfl
    · rw [List.flatMap_nil, List.nil_append, readOptions.eq_def]
      rfl
  | cons a rest ih =>
    rw [List.flatMap_cons, List.append_assoc, readOptions_written (valid a List.mem_cons_self),
      ih (fun b mem => valid b (List.mem_cons_of_mem a mem)), List.foldl_cons]

/-- JSON is asked for if it is asked for once, and of the paths the last one counts. -/
theorem foldl_given (arguments : List Argument) (options : DisplayOptions) :
    arguments.foldl given options =
      ⟨options.json || decide (.json ∈ arguments), (lastPath? arguments).or options.envFile⟩ := by
  induction arguments generalizing options with
  | nil => simp [lastPath?]
  | cons a rest ih =>
    rw [List.foldl_cons, ih]
    cases a <;> simp [given, lastPath?, Argument.path?, List.getLast?_cons]

/-! ## 4. What a line asks for -/

/-- A word that does not look like an option is put aside. -/
theorem split_cons_of_not_isOption {word : String} (plain : isOption word = false)
    (words : List String) : split (word :: words) = (word :: (split words).1, (split words).2) := by
  unfold split
  rw [List.takeWhile_cons_of_pos (by simp [plain]), List.dropWhile_cons_of_pos (by simp [plain])]
  split <;> rfl

/-- An option that does not end the options is where the options start. -/
theorem split_cons_of_isOption {word : String} (option : isOption word = true)
    (unended : word ≠ "--") (words : List String) :
    split (word :: words) = ([], word :: words) := by
  unfold split
  rw [List.takeWhile_cons_of_neg (by simp [option]), List.dropWhile_cons_of_neg (by simp [option])]
  split
  · rename_i more same
    exact absurd (List.cons.inj same).1 unended
  · rfl

theorem split_ended {tail : List String} (ended : Ended tail) : (split tail).2 = [] := by
  rcases ended with rfl | ⟨more, rfl⟩
  · rfl
  · unfold split
    rw [List.takeWhile_cons_of_neg (by decide), List.dropWhile_cons_of_neg (by decide)]
    rfl

/-- Either a line starts with an operand, or it is split before its first word. -/
theorem split_written {a : Argument} (valid : a.Valid) (words : List String) :
    (∃ text, a = .operand text ∧
        split (a.written ++ words) = (text :: (split words).1, (split words).2)) ∨
      split (a.written ++ words) = ([], a.written ++ words) := by
  cases a with
  | json => exact .inr (split_cons_of_isOption (by decide) (by decide) _)
  | envFile path => exact .inr (split_cons_of_isOption (by decide) (by decide) _)
  | envFileJoined path =>
    exact .inr (split_cons_of_isOption (isOption_of_joinedPath? (joinedPath?_append path))
      (joined_ne (by decide)) _)
  | operand text => exact .inl ⟨text, rfl, split_cons_of_not_isOption valid _⟩

/-- What a line is split off from its operands asks for the same as all its arguments. -/
theorem request_split {arguments : List Argument} (valid : ∀ a ∈ arguments, a.Valid)
    {tail : List String} (ended : Ended tail) :
    Subcommand.display.request (split (arguments.flatMap Argument.written ++ tail)).2 =
      .ok (.display (optionsOf arguments)) := by
  induction arguments with
  | nil =>
    rw [List.flatMap_nil, List.nil_append, split_ended ended]
    rfl
  | cons a rest ih =>
    rw [List.flatMap_cons, List.append_assoc]
    rcases split_written (valid a List.mem_cons_self) (rest.flatMap Argument.written ++ tail) with
      ⟨text, rfl, operand⟩ | option
    · rw [operand, ih fun b mem => valid b (List.mem_cons_of_mem _ mem)]
      simp [optionsOf, lastPath?, Argument.path?]
    · rw [option, ← List.append_assoc, ← List.flatMap_cons, Subcommand.request,
        readOptions_flatMap_written valid {} ended, foldl_given]
      simp [optionsOf]

theorem mem_of_mem_split {word : String} {words : List String} (mem : word ∈ (split words).2) :
    word ∈ words := by
  unfold split at mem
  split at mem
  · cases mem
  · exact (List.dropWhile_sublist _).subset mem

/-- Nobody asks for the version before the options end. -/
theorem any_asksVersion_written {arguments : List Argument} (valid : ∀ a ∈ arguments, a.Valid)
    {tail : List String} (ended : Ended tail) :
    ((arguments.flatMap Argument.written ++ tail).takeWhile (· ≠ "--")).any asksVersion =
      false := by
  have stopped : tail.takeWhile (· ≠ "--") = [] := by
    rcases ended with rfl | ⟨more, rfl⟩ <;> rfl
  have within : ∀ word ∈ (arguments.flatMap Argument.written ++ tail).takeWhile (· ≠ "--"),
      word ∈ arguments.flatMap Argument.written := by
    intro word mem
    rw [List.takeWhile_append, stopped, List.append_nil] at mem
    split at mem
    · exact mem
    · exact (List.takeWhile_sublist _).subset mem
  rw [List.any_eq_false]
  intro word mem asks
  obtain ⟨a, given, written⟩ := List.mem_flatMap.1 (within word mem)
  rw [(asks_of_mem_written (valid a given) written).1] at asks
  cases asks

/-- A command line asks for what its arguments say. -/
theorem ofArguments_line {line : List String} {arguments : List Argument}
    (h : Line line arguments) :
    Request.ofArguments line = .ok (.display (optionsOf arguments)) := by
  cases h with
  | named valid ended =>
    rename_i tail
    have version := any_asksVersion_written valid ended
    have first : Subcommand.display.name ≠ "--" := by decide
    have asks : asksVersion Subcommand.display.name = false := by decide
    simp only [Request.ofArguments, split_cons_of_not_isOption
      (show isOption Subcommand.display.name = false by decide), Subcommand.ofName?_name]
    rw [List.takeWhile_cons_of_pos (by simp [first]), List.any_cons, asks, version,
      request_split valid ended]
    rfl
  | unnamed valid paths operand =>
    have ended : Ended [] := .inl rfl
    have version := any_asksVersion_written valid ended
    have request := request_split valid ended
    rw [List.append_nil] at version request
    have help : (split (arguments.flatMap Argument.written)).2.any asksHelp = false := by
      rw [List.any_eq_false]
      intro word mem asks
      obtain ⟨a, given, written⟩ := List.mem_flatMap.1 (mem_of_mem_split mem)
      rcases (asks_of_mem_written (valid a given) written).2 with none | rfl
      · exact absurd asks (Bool.eq_false_iff.1 none)
      · exact absurd asks (Bool.eq_false_iff.1 (paths word given))
    -- The words before the options are no operands, or start with one that names nothing.
    have operands : (split (arguments.flatMap Argument.written)).1 = [] ∨
        ∃ text more, (split (arguments.flatMap Argument.written)).1 = text :: more ∧
          Subcommand.ofName? text = none ∧ text ≠ "help" := by
      cases arguments with
      | nil => exact .inl rfl
      | cons a rest =>
        rw [List.flatMap_cons]
        rcases split_written (valid a List.mem_cons_self) (rest.flatMap Argument.written) with
          ⟨text, rfl, split⟩ | split
        · rw [split]
          exact .inr ⟨text, _, rfl, operand text rfl⟩
        · rw [split]
          exact .inl rfl
    simp only [Request.ofArguments, version, help, request, Bool.false_eq_true, if_false]
    rcases operands with none | ⟨text, more, some, unnamed, noHelp⟩
    · rw [none]
    · rw [some]
      simp only [unnamed, noHelp, if_false]

end BenchSettings.Command
