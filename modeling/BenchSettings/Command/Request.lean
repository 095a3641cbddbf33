/-
BenchSettings.Command.Request — what the arguments of a command line ask for.

There are two subcommands: `show`, which is meant when none is named, and
`usage`. A question for help or for the version is answered in place of
anything else. Arguments that a subcommand has no use for are ignored, options
that it does not know are an error.

The program looks at the arguments first and hands over to a subcommand what
starts with the first option (`split`), and the subcommand then reads its own
options wherever they stand (`readOptions`). The argument `--` ends the options.
-/

namespace BenchSettings.Command

/-! ## 1. Subcommands and their options -/

inductive Subcommand where
  /-- Loads the configuration and prints it. -/
  | display
  /-- Prints the list of variables. -/
  | usage
  deriving DecidableEq, Repr

namespace Subcommand

def name : Subcommand → String
  | display => "show"
  | usage => "usage"

def ofName? (name : String) : Option Subcommand := [display, usage].find? (·.name == name)

theorem ofName?_name (s : Subcommand) : ofName? s.name = some s := by cases s <;> decide

end Subcommand

inductive Flag where
  /-- The configuration is printed as a JSON document. -/
  | json
  /-- Variables are read from a file, whose path is the value of the option. -/
  | envFile
  deriving DecidableEq, Repr

def Flag.name : Flag → String
  | json => "--json"
  | envFile => "--env-file"

def Subcommand.flags : Subcommand → List Flag
  | display => [.json, .envFile]
  | usage => []

/-- How a configuration is to be loaded and printed. -/
structure DisplayOptions where
  json : Bool := false
  envFile : Option String := none
  deriving DecidableEq, Repr

/-- What the arguments ask for. -/
inductive Request where
  | version
  /-- Help on a subcommand, or on the program. -/
  | help (topic : Option Subcommand)
  /-- Help on a subcommand that does not exist. -/
  | helpOnNothing
  | display (options : DisplayOptions)
  | usage
  deriving DecidableEq, Repr

/-- Why the arguments ask for nothing. -/
inductive ArgumentError where
  /-- The last argument is an option without its value. -/
  | missingPath
  | unknownOption (subcommand : Subcommand) (option : String)
  deriving DecidableEq, Repr

/-! ## 2. Options among the arguments -/

/-- Whether an argument has the form of an option: a hyphen and more. -/
def isOption (argument : String) : Bool :=
  match argument.toList with
  | '-' :: _ :: _ => true
  | _ => false

def asksVersion (argument : String) : Bool :=
  argument == "--version" || "-V".toList.isPrefixOf argument.toList

def asksHelp (argument : String) : Bool := argument == "-h" || argument == "--help"

/-- The path in an argument that holds the option for the env file together with its value. -/
def joinedPath? (argument : String) : Option String :=
  let start := (Flag.envFile.name ++ "=").toList
  if start.isPrefixOf argument.toList then some (String.ofList (argument.toList.drop start.length))
  else none

/-- Reads the options that a subcommand knows and lists those it does not. Of a repeated option the
last value counts. After `--` nothing is an option, but an argument there can still ask for help
when an unknown option stands before it. -/
def readOptions (s : Subcommand) (options : DisplayOptions) (unknown : List String) :
    List String → Except ArgumentError (DisplayOptions × List String)
  | [] => .ok (options, unknown)
  | argument :: rest =>
    if argument = "--" then .ok (options, if unknown = [] then [] else unknown ++ rest)
    else
      match s.flags.find? (·.name == argument) with
      | some .json => readOptions s { options with json := true } unknown rest
      | some .envFile =>
        match rest with
        | [] => .error .missingPath
        | path :: rest => readOptions s { options with envFile := some path } unknown rest
      | none =>
        match if .envFile ∈ s.flags then joinedPath? argument else none with
        | some path => readOptions s { options with envFile := some path } unknown rest
        | none =>
          readOptions s options (if isOption argument then unknown ++ [argument] else unknown) rest

/-! ## 3. Requests -/

def Subcommand.request (s : Subcommand) (arguments : List String) : Except ArgumentError Request :=
  match readOptions s {} [] arguments with
  | .error e => .error e
  | .ok (options, unknown) =>
    if unknown.any asksHelp then .ok (.help (some s))
    else
      match unknown, s with
      | option :: _, _ => .error (.unknownOption s option)
      | [], .display => .ok (.display options)
      | [], .usage => .ok .usage

/-- The arguments before the first option, and the rest. Behind `--` no argument is an option. -/
def split (arguments : List String) : List String × List String :=
  let operands := arguments.takeWhile fun a => !isOption a
  match arguments.dropWhile fun a => !isOption a with
  | "--" :: more => (operands ++ more, [])
  | options => (operands, options)

/-- What the arguments after `help` ask for. -/
def helpRequest : List String → Request
  | [] => .help none
  | topic :: _ =>
    if topic = "" then .help none
    else
      match Subcommand.ofName? topic with
      | some s => .help (some s)
      | none => .helpOnNothing

def Request.ofArguments (arguments : List String) : Except ArgumentError Request :=
  let (operands, options) := split arguments
  let unnamed :=
    if options.any asksHelp then .ok (.help none) else Subcommand.display.request options
  if (arguments.takeWhile (· ≠ "--")).any asksVersion then .ok .version
  else
    match operands with
    | [] => unnamed
    | first :: rest =>
      match Subcommand.ofName? first with
      | some s => s.request options
      | none => if first = "help" then .ok (helpRequest rest) else unnamed

end BenchSettings.Command
