/-
BenchSettings.EnvFile.Load — reading an env file.

A file whose path ends in `.json` is JSON, any other is YAML. A file without a
document sets nothing.
-/
import BenchSettings.Directory
import BenchSettings.EnvFile.Entries
import BenchSettings.Json.Reader
import BenchSettings.Yaml.Document

namespace BenchSettings.EnvFile

/-- Why an env file sets nothing. -/
inductive EnvFileError where
  | file (error : FileError)
  | yaml (error : Yaml.YamlError)
  | json
  | faulty (issues : List Check.Issue)

/-- What is told of a file that sets nothing. That a text is not well-formed is told in words of
this library's own, which leave out where and how it fails. -/
def EnvFileError.message : EnvFileError → String
  | .file e => e.message
  | .yaml .malformed => "The env file is not well-formed YAML"
  | .yaml (.reference (.unresolved name)) =>
    "Unresolved alias (the anchor must be set before the alias): " ++ name
  | .yaml (.reference .excessive) =>
    "Excessive alias count indicates a resource exhaustion attack"
  | .json => "The env file is not well-formed JSON"
  | .faulty issues => Check.issuesText issues

def isJsonPath (path : String) : Bool := ".json".toList.isSuffixOf path.toList

def valueOf (path : String) (text : List Char) : Except EnvFileError (JsonOf Text.Loose) :=
  if isJsonPath path then
    match Json.parse? (String.ofList text) with
    | some value => .ok value
    | none => .error .json
  else
    match Yaml.parse text with
    | .ok value => .ok (value.getD .null)
    | .error e => .error (.yaml e)

def load (files : Files) (path : String) : Except EnvFileError Environment :=
  match files.text path with
  | .error e => .error (.file e)
  | .ok text =>
    match valueOf path text with
    | .error e => .error e
    | .ok value =>
      match environmentOf value with
      | .ok env => .ok env
      | .error issues => .error (.faulty issues)

end BenchSettings.EnvFile
