/-
BenchSettings.Check.Candidate — values of any kind, and checks of one value.

A candidate is what somebody hands over as a configuration or as a report: any
value at all, where a member may also be missing. The checks in this module
look at one value each and list its faults. A value of a wrong kind has that
fault only; a number is checked for being whole and for its bound
independently, so it may have two.
-/
import BenchSettings.Check.Issue
import BenchSettings.Number.Shortest

namespace BenchSettings.Check

/-- A value that may be of any kind. -/
inductive Candidate where
  | null
  | bool (value : Bool)
  | number (value : Number)
  | string (text : String)
  | bytes (value : List UInt8)
  | array (items : List Candidate)
  | object (members : List (String × Candidate))
  deriving Inhabited

namespace Candidate

mutual

def ofJson : Json → Candidate
  | .null => .null
  | .bool b => .bool b
  | .number n => .number n
  | .string s => .string s
  | .array items => .array (ofJsonItems items)
  | .object members => .object (ofJsonMembers members)
termination_by structural v => v

def ofJsonItems : List Json → List Candidate
  | [] => []
  | item :: rest => ofJson item :: ofJsonItems rest
termination_by structural items => items

def ofJsonMembers : List (String × Json) → List (String × Candidate)
  | [] => []
  | (name, value) :: rest => (name, ofJson value) :: ofJsonMembers rest
termination_by structural members => members

end

/-! ## 1. Kinds and members -/

/-- The kind of a candidate. Bytes are an object like any other. -/
def kind : Candidate → Kind
  | .null => .null
  | .bool _ => .boolean
  | .number .nan => .nan
  | .number _ => .number
  | .string _ => .string
  | .bytes _ => .object
  | .array _ => .array
  | .object _ => .object

/-- The members of an object; bytes have none by name. -/
def members? : Candidate → Option (List (String × Candidate))
  | .object members => some members
  | .bytes _ => some []
  | _ => none

end Candidate

def kindOf : Option Candidate → Kind
  | none => .absent
  | some v => v.kind

/-! ## 2. Checks of one value -/

def boolFaults : Option Candidate → List Fault
  | some (.bool _) => []
  | v => [.wrongKind .boolean (kindOf v)]

def boolOf : Option Candidate → Bool
  | some (.bool b) => b
  | _ => false

def stringFaults : Option Candidate → List Fault
  | some (.string _) => []
  | v => [.wrongKind .string (kindOf v)]

def stringOf : Option Candidate → String
  | some (.string s) => s
  | _ => ""

/-- The faults of a value that has to be a whole number, with `more` of them for the number. -/
def wholeFaults (more : Number → List Fault) : Option Candidate → List Fault
  | some (.number .nan) => [.wrongKind .number .nan]
  | some (.number n) => (if n.isInteger then [] else [.wrongKind .integer .float]) ++ more n
  | v => [.wrongKind .number (kindOf v)]

def wholeOf : Option Candidate → Int
  | some (.number (.integer n)) => n
  | _ => 0

def objectFaults (v : Option Candidate) : List Fault :=
  match v.bind Candidate.members? with
  | some _ => []
  | none => [.wrongKind .object (kindOf v)]

def membersOf (v : Option Candidate) : List (String × Candidate) :=
  (v.bind Candidate.members?).getD []

/-! ## 3. When a value has no fault -/

theorem boolFaults_eq_nil_iff {v : Option Candidate} :
    boolFaults v = [] ↔ v = some (.bool (boolOf v)) := by
  unfold boolFaults boolOf
  split <;> simp_all

theorem wholeFaults_eq_nil_iff {more : Number → List Fault} {v : Option Candidate} :
    wholeFaults more v = [] ↔
      v = some (.number (.integer (wholeOf v))) ∧ more (.integer (wholeOf v)) = [] := by
  unfold wholeFaults wholeOf
  split
  · simp
  · rename_i n h
    cases n <;> simp_all [Number.isInteger]
  · simp_all

end BenchSettings.Check
