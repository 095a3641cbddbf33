/-
BenchSettings.Check.Issue — what a check finds wrong, and where.

An issue is a fault at a path, the names of the members that lead to it. A name
in a file can be any loose text, so that is what a path lists. Each fault has a
code and a message; `Issue.toJson` is the full record of an issue,
which is what a user sees of an env file that cannot be used.
-/
import BenchSettings.Json.Printer

namespace BenchSettings.Check

open Text (Loose)

/-! ## 1. Kinds of values -/

/-- What sort of thing a value is, as messages call it. -/
inductive Kind where
  | string
  | number
  | integer
  | float
  | nan
  | boolean
  | object
  | array
  | null
  /-- There is no value. -/
  | absent
  deriving DecidableEq, Repr

def Kind.word : Kind → String
  | .string => "string"
  | .number => "number"
  | .integer => "integer"
  | .float => "float"
  | .nan => "nan"
  | .boolean => "boolean"
  | .object => "object"
  | .array => "array"
  | .null => "null"
  | .absent => "undefined"

def Kind.ofJson {τ : Type} : JsonOf τ → Kind
  | .null => .null
  | .bool _ => .boolean
  | .number .nan => .nan
  | .number _ => .number
  | .string _ => .string
  | .array _ => .array
  | .object _ => .object

/-! ## 2. Faults -/

/-- What can be wrong with a value. -/
inductive Fault where
  /-- The value is of another kind than it has to be. -/
  | wrongKind (expected received : Kind)
  /-- The value is not the one text it has to be. -/
  | wrongText (expected : String)
  /-- The number is too small. -/
  | tooSmall (message : String)
  /-- The number is no multiple of what it has to be. -/
  | notMultiple (message : String)
  /-- The value breaks a rule of its own. -/
  | custom (message : String)
  /-- A variable has a name that no variable can have. -/
  | badName
  /-- The value is of none of the kinds it may be. -/
  | noAlternative (alternatives : List Kind) (received : Kind)
  deriving DecidableEq, Repr

namespace Fault

def code : Fault → String
  | .wrongKind .. => "invalid_type"
  | .wrongText _ => "invalid_literal"
  | .tooSmall _ => "too_small"
  | .notMultiple _ => "not_multiple_of"
  | .custom _ => "custom"
  | .badName => "invalid_string"
  | .noAlternative .. => "invalid_union"

def message : Fault → String
  | .wrongKind _ .absent => "Required"
  | .wrongKind expected received => "Expected " ++ expected.word ++ ", received " ++ received.word
  | .wrongText expected =>
    "Invalid literal value, expected " ++ String.ofList (Json.quote expected)
  | .tooSmall message | .notMultiple message | .custom message => message
  | .badName => "Variable names must be upper-case identifiers"
  | .noAlternative .. => "Invalid input"

end Fault

/-! ## 3. Issues -/

/-- A fault at the end of a path. -/
structure Issue where
  path : List Loose
  fault : Fault
  deriving DecidableEq, Repr

namespace Issue

def pathJson (path : List Loose) : JsonOf Loose := .array (path.map .string)

def wrongKindJson (path : List Loose) (expected received : Kind) : JsonOf Loose :=
  .object
    [("code", .string (Fault.wrongKind expected received).code),
     ("expected", .string expected.word),
     ("received", .string received.word),
     ("path", pathJson path),
     ("message", .string (Fault.wrongKind expected received).message)]

def toJson (i : Issue) : JsonOf Loose :=
  match i.fault with
  | .wrongKind expected received => wrongKindJson i.path expected received
  | .badName =>
    .object
      [("validation", .string "regex"),
       ("code", .string i.fault.code),
       ("message", .string i.fault.message),
       ("path", pathJson i.path)]
  | .noAlternative alternatives received =>
    .object
      [("code", .string i.fault.code),
       ("unionErrors", .array <| alternatives.map fun expected =>
          .object
            [("issues", .array [wrongKindJson i.path expected received]),
             ("name", .string "ZodError")]),
       ("path", pathJson i.path),
       ("message", .string i.fault.message)]
  | _ =>
    .object
      [("code", .string i.fault.code),
       ("message", .string i.fault.message),
       ("path", pathJson i.path)]

/-- Faults of one member, as issues. -/
def under (path : List Loose) (faults : List Fault) : List Issue := faults.map fun f => ⟨path, f⟩

theorem under_eq_nil_iff {path : List Loose} {faults : List Fault} :
    under path faults = [] ↔ faults = [] :=
  List.map_eq_nil_iff

end Issue

/-- The records of all issues as one text. -/
def issuesText (issues : List Issue) : String := Json.toText (.array (issues.map Issue.toJson))

end BenchSettings.Check
