/-
BenchSettings.Directory — the files that settings are read from.

Whoever reads settings is given a way to read files (`Files`): a path yields
bytes, or the words of a file system for why there are none. One such way is
a directory that lists files and further directories by their path from it.
A path is followed name by name; the name `.` stays where it is, `..` goes
back, and nothing can be found below a file.
-/
import BenchSettings.Named
import BenchSettings.Text.Utf8

namespace BenchSettings

/-! ## 1. Files -/

/-- Why nothing could be read. -/
inductive FileError where
  | notFound (path : String)
  | notDirectory (path : String)
  | denied (path : String)
  | isDirectory
  /-- Anything else, in the words of the system. -/
  | other (reason : String)
  deriving DecidableEq, Repr

def FileError.message : FileError → String
  | .notFound path => "ENOENT: no such file or directory, open '" ++ path ++ "'"
  | .notDirectory path => "ENOTDIR: not a directory, open '" ++ path ++ "'"
  | .denied path => "EACCES: permission denied, open '" ++ path ++ "'"
  | .isDirectory => "EISDIR: illegal operation on a directory, read"
  | .other reason => reason

/-- A way to read files by their path. -/
abbrev Files := String → Except FileError (List UInt8)

def Files.text (files : Files) (path : String) : Except FileError (List Char) :=
  (files path).map Text.Utf8.decode

/-! ## 2. Directories -/

inductive Entry where
  | file (bytes : List UInt8)
  | directory
  deriving DecidableEq, Repr

/-- Files and directories by their path. -/
structure Directory where
  entries : List (String × Entry)

namespace Directory

def empty : Directory := ⟨[]⟩

/-- The names that a path goes through. -/
def names (path : String) : List String := (path.toList.splitOn '/').map String.ofList

/-- Where names lead outside of the directory: of what is there only the directories above are
known. -/
def followOutside (path : String) (names : List String) : Except FileError Entry :=
  if names.all fun name => name == "" || name == "." || name == ".." then .ok .directory
  else .error (.notFound path)

/-- Where a path leads from a directory, given by the names from here, the last first. -/
def follow (d : Directory) (path : String) : List String → List String → Except FileError Entry
  | _, [] => .ok .directory
  | place, name :: rest =>
    if name = "" ∨ name = "." then follow d path place rest
    else if name = ".." then
      match place with
      | [] => followOutside path rest
      | _ :: parent => follow d path parent rest
    else
      match Named.get? (String.intercalate "/" (name :: place).reverse) d.entries with
      | none => .error (.notFound path)
      | some .directory => follow d path (name :: place) rest
      | some (.file bytes) => if rest = [] then .ok (.file bytes) else .error (.notDirectory path)

/-- Where a path leads. Paths from the root lead outside, and an empty path leads nowhere. -/
def find (d : Directory) (path : String) : Except FileError Entry :=
  if path = "" then .error (.notFound path)
  else if path.toList.head? = some '/' then followOutside path (names path)
  else follow d path [] (names path)

def read (d : Directory) : Files := fun path =>
  match d.find path with
  | .ok (.file bytes) => .ok bytes
  | .ok .directory => .error .isDirectory
  | .error e => .error e

end Directory

end BenchSettings
