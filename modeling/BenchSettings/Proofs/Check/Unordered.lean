/-
BenchSettings.Proofs.Check.Unordered — a check of a report looks members up by
name.

In what order a file lists the members of an object is nobody's business, and
the check of a report does not look at it: of two values that are the same up
to that order (`Json.Same`) either both are the same report or both have the
same issues (`document_congr`).

The reason is the same for every check of a single value. It looks at the kind
of the value and at what a scalar is, and these are the same; only then does
it look into a section, by name again.
-/
import BenchSettings.Check.Document
import BenchSettings.Proofs.Json.Canonical

namespace BenchSettings

open Json (Same)

/-! ## 1. Looking members up -/

/-- Members that are found alike under every name. -/
def Json.FoundAlike (ms ns : List (String × Json)) : Prop :=
  ∀ name, Option.Rel Same (Named.get? name ms) (Named.get? name ns)

/-- The members of what may be an object. -/
def Json.membersOf : Option Json → List (String × Json)
  | some (.object members) => members
  | _ => []

theorem Json.foundAlike_of_object {ms ns : List (String × Json)}
    (same : Same (.object ms) (.object ns)) : FoundAlike ms ns := by
  intro name
  cases same with
  | refl =>
    cases Named.get? name ms with
    | none => exact .none
    | some v => exact .some (.refl v)
  | object names values =>
    have both := names name
    rw [Named.mem_names_iff, Named.mem_names_iff] at both
    cases hv : Named.get? name ms with
    | none =>
      cases hw : Named.get? name ns with
      | none => exact .none
      | some w => simp [hv, hw] at both
    | some v =>
      cases hw : Named.get? name ns with
      | none => simp [hv, hw] at both
      | some w => exact .some (values name v w hv hw)

theorem Json.foundAlike_membersOf {v w : Option Json} (same : Option.Rel Same v w) :
    FoundAlike (membersOf v) (membersOf w) := by
  cases same with
  | none => exact fun _ => .none
  | some same =>
    cases same with
    | refl =>
      rename_i v
      cases v with
      | object members => exact foundAlike_of_object (.refl _)
      | _ => exact fun _ => .none
    | array => exact fun _ => .none
    | object names values => exact foundAlike_of_object (.object names values)

namespace Check

open Json (FoundAlike)

theorem get?_ofJsonMembers (members : List (String × Json)) (name : String) :
    Named.get? name (Candidate.ofJsonMembers members) =
      (Named.get? name members).map Candidate.ofJson := by
  induction members with
  | nil => rfl
  | cons member rest ih =>
    obtain ⟨other, value⟩ := member
    by_cases same : other = name <;> simp [Candidate.ofJsonMembers, Named.get?, same, ih]

theorem membersOf_ofJson (v : Option Json) :
    membersOf (v.map Candidate.ofJson) = Candidate.ofJsonMembers (Json.membersOf v) := by
  cases v with
  | none => rfl
  | some v => cases v <;> rfl

/-! ## 2. Checks of one value -/

/-- What tells values apart by their kind and by what scalars they are does not tell the order of
members. -/
theorem eq_of_same {β : Type} (f : Option Candidate → β)
    (arrays : ∀ xs ys, f (some (.array xs)) = f (some (.array ys)))
    (objects : ∀ ms ns, f (some (.object ms)) = f (some (.object ns)))
    {v w : Option Json} (same : Option.Rel Same v w) :
    f (v.map Candidate.ofJson) = f (w.map Candidate.ofJson) := by
  cases same with
  | none => rfl
  | some same =>
    cases same with
    | refl => rfl
    | array => exact arrays _ _
    | object => exact objects _ _

/-! ## 3. The whole report -/

section

variable {ms ns : List (String × Json)} (alike : FoundAlike ms ns)

include alike

theorem get?_alike {β : Type} (f : Option Candidate → β)
    (arrays : ∀ xs ys, f (some (.array xs)) = f (some (.array ys)))
    (objects : ∀ ms ns, f (some (.object ms)) = f (some (.object ns))) (name : String) :
    f (Named.get? name (Candidate.ofJsonMembers ms)) =
      f (Named.get? name (Candidate.ofJsonMembers ns)) := by
  rw [get?_ofJsonMembers, get?_ofJsonMembers]
  exact eq_of_same f arrays objects (alike name)

theorem switchIssues_congr :
    switchIssues (Candidate.ofJsonMembers ms) = switchIssues (Candidate.ofJsonMembers ns) := by
  have bools := get?_alike alike boolFaults (fun _ _ => rfl) fun _ _ => rfl
  simp only [switchIssues, bools]

theorem patternSectionIssues_congr :
    patternSectionIssues (Candidate.ofJsonMembers ms) =
      patternSectionIssues (Candidate.ofJsonMembers ns) := by
  have bools := get?_alike alike boolFaults (fun _ _ => rfl) fun _ _ => rfl
  have strings := get?_alike alike stringFaults (fun _ _ => rfl) fun _ _ => rfl
  have wholes := get?_alike alike (wholeFaults nonnegativeFaults) (fun _ _ => rfl) fun _ _ => rfl
  simp only [patternSectionIssues, bools, strings, wholes]

theorem sectionIssues_congr {inside : List (String × Candidate) → List Issue}
    (insideCongr : ∀ {ms ns : List (String × Json)}, FoundAlike ms ns →
      inside (Candidate.ofJsonMembers ms) = inside (Candidate.ofJsonMembers ns)) (name : String) :
    sectionIssues name (Candidate.ofJsonMembers ms) inside =
      sectionIssues name (Candidate.ofJsonMembers ns) inside := by
  have faults := get?_alike alike objectFaults (fun _ _ => rfl) (fun _ _ => rfl) name
  have members := insideCongr (Json.foundAlike_membersOf (alike name))
  simp only [← membersOf_ofJson, ← get?_ofJsonMembers] at members
  rw [sectionIssues, sectionIssues, faults, members]

theorem documentIssues_congr :
    documentIssues (Candidate.ofJsonMembers ms) = documentIssues (Candidate.ofJsonMembers ns) := by
  have version := get?_alike alike versionFaults (fun _ _ => rfl) fun _ _ => rfl
  have wholes (q : Quantity) :=
    get?_alike alike (wholeFaults (reportedFaults q)) (fun _ _ => rfl) fun _ _ => rfl
  simp only [documentIssues, version, wholes, sectionIssues_congr alike switchIssues_congr,
    sectionIssues_congr alike patternSectionIssues_congr]

theorem documentOf_congr :
    documentOf (Candidate.ofJsonMembers ms) = documentOf (Candidate.ofJsonMembers ns) := by
  have flags := Json.foundAlike_membersOf (alike "flags")
  have pattern := Json.foundAlike_membersOf (alike "fillPattern")
  simp only [documentOf, get?_ofJsonMembers _ "flags", get?_ofJsonMembers _ "fillPattern",
    membersOf_ofJson]
  congr 1
  · funext s
    exact get?_alike flags boolOf (fun _ _ => rfl) (fun _ _ => rfl) s.field
  · funext q
    exact get?_alike alike wholeOf (fun _ _ => rfl) (fun _ _ => rfl) q.field
  · exact get?_alike pattern boolOf (fun _ _ => rfl) (fun _ _ => rfl) "specified"
  · exact get?_alike pattern stringOf (fun _ _ => rfl) (fun _ _ => rfl) "hex"
  · exact congrArg Int.toNat
      (get?_alike pattern wholeOf (fun _ _ => rfl) (fun _ _ => rfl) "byteLength")

end

theorem document_object (members : List (String × Json)) :
    document (.object members) =
      match documentIssues (Candidate.ofJsonMembers members) with
      | [] => .ok (documentOf (Candidate.ofJsonMembers members))
      | issues => .error issues := rfl

/-- The order of members makes no difference to whether a value is a report, and to which. -/
theorem document_congr {v w : Json} (same : Same v w) : document v = document w := by
  cases same with
  | refl => rfl
  | array => rfl
  | object names values =>
    have alike := Json.foundAlike_of_object (.object names values)
    rw [document_object, document_object, documentIssues_congr alike, documentOf_congr alike]

end Check

end BenchSettings
