/-
BenchSettings.Check.Document — checking that a JSON value is a report.

A report is an object with the version, a section of switches, the quantities
and a section on the fill pattern. The issues come in that order, those of a
section with the name of the section before their own; a section that is no
object has that one issue, and no fault hides another. What is no part of a
report is dropped, at the top and in both sections.
-/
import BenchSettings.Check.Candidate
import BenchSettings.Report.Document

namespace BenchSettings.Check

open Report (Document documentVersion)

/-! ## 1. Bounds of reported numbers -/

def nonnegativeFaults (n : Number) : List Fault :=
  if n.atLeast 0 then [] else [.tooSmall "Number must be greater than or equal to 0"]

def positiveFaults (n : Number) : List Fault :=
  if n.exceeds 0 then [] else [.tooSmall "Number must be greater than 0"]

/-- The faults of a reported quantity, by its bound. -/
def reportedFaults : Quantity → Number → List Fault
  | .byteOffset => fun _ => []
  | .warmups => nonnegativeFaults
  | .iterations | .samplingFactor | .cpuPerLink => positiveFaults

/-! ## 2. Sections -/

/-- The issues of a section: that it is none, or those of its members. -/
def sectionIssues (name : String) (members : List (String × Candidate))
    (inside : List (String × Candidate) → List Issue) : List Issue :=
  match objectFaults (Named.get? name members) with
  | [] => (inside (membersOf (Named.get? name members))).map fun i => ⟨name :: i.path, i.fault⟩
  | faults => Issue.under [name] faults

def switchIssues (members : List (String × Candidate)) : List Issue :=
  Switch.all.flatMap fun s => Issue.under [s.field] (boolFaults (Named.get? s.field members))

def patternSectionIssues (members : List (String × Candidate)) : List Issue :=
  Issue.under ["specified"] (boolFaults (Named.get? "specified" members)) ++
    Issue.under ["hex"] (stringFaults (Named.get? "hex" members)) ++
    Issue.under ["byteLength"] (wholeFaults nonnegativeFaults (Named.get? "byteLength" members))

/-! ## 3. The whole report -/

def versionFaults : Option Candidate → List Fault
  | some (.string s) => if s = documentVersion then [] else [.wrongText documentVersion]
  | _ => [.wrongText documentVersion]

/-- The issues of the members of a report, in order. -/
def documentIssues (members : List (String × Candidate)) : List Issue :=
  Issue.under ["version"] (versionFaults (Named.get? "version" members)) ++
    sectionIssues "flags" members switchIssues ++
    Quantity.all.flatMap
      (fun q =>
        Issue.under [q.field] (wholeFaults (reportedFaults q) (Named.get? q.field members))) ++
    sectionIssues "fillPattern" members patternSectionIssues

def documentOf (members : List (String × Candidate)) : Document :=
  let flags := membersOf (Named.get? "flags" members)
  let pattern := membersOf (Named.get? "fillPattern" members)
  { switch := fun s => boolOf (Named.get? s.field flags)
    quantity := fun q => wholeOf (Named.get? q.field members)
    specified := boolOf (Named.get? "specified" pattern)
    hex := stringOf (Named.get? "hex" pattern)
    byteLength := (wholeOf (Named.get? "byteLength" pattern)).toNat }

/-- Checks a JSON value: all its issues as a report, or the report it is. -/
def document (v : Json) : Except (List Issue) Document :=
  let candidate := Candidate.ofJson v
  match candidate.members? with
  | none => .error [⟨[], .wrongKind .object candidate.kind⟩]
  | some members =>
    match documentIssues members with
    | [] => .ok (documentOf members)
    | issues => .error issues

end BenchSettings.Check
