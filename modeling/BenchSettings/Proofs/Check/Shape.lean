/-
BenchSettings.Proofs.Check.Shape — what a value has to look like, and all that
is wrong with one that does not.

A shape says what is asked of a value. The flaws of a value are read off its
shape alone: a value of a wrong kind has that flaw and no other, a number that
is not whole can be past its limit as well, and an object has the flaws of its
fields in the order in which they are declared, each with the name of the field
in front of its path. So flaws are listed depth first, and no field hides
another.

The checks of this library are written field by field and know no shapes. This
module has what ties one of them to the flaws of a shape: `flaws_truth` and the
like for a single value, `told_under_append` for a field in front of others, and
`decidedBy_of_members` for what the check makes of all its issues.

The part of a value that its shape declares is the value without the rest
(`Shape.prune`).
-/
import BenchSettings.Check.Document
import BenchSettings.Proofs.EnvFile.Faults
import BenchSettings.Proofs.Number.Doubles

namespace BenchSettings

open EnvFile (told)
open Text (Loose)

/-! ## 1. Limits of numbers -/

namespace Number

theorem atLeast_iff {bound : Int} {n : Number} :
    n.atLeast bound = true ↔ n = .infinite false ∨ ∃ q, n.value? = some q ∧ (bound : ℚ) ≤ q := by
  cases n with
  | fraction n k =>
    have scaled : (bound : ℚ) ≤ n / 2 ^ k ↔ bound * 2 ^ k ≤ n := by
      rw [le_div_iff₀ (by positivity)]
      exact_mod_cast Iff.rfl
    simp [atLeast, value?, scaled]
  | _ => simp [atLeast, value?]

theorem exceeds_iff {bound : Int} {n : Number} :
    n.exceeds bound = true ↔ n = .infinite false ∨ ∃ q, n.value? = some q ∧ (bound : ℚ) < q := by
  cases n with
  | fraction n k =>
    have scaled : (bound : ℚ) < n / 2 ^ k ↔ bound * 2 ^ k < n := by
      rw [lt_div_iff₀ (by positivity)]
      exact_mod_cast Iff.rfl
    simp [exceeds, value?, scaled]
  | _ => simp [exceeds, value?]

end Number

namespace Check

/-- A limit for numbers, with the words for a number that is past it. -/
inductive Limit where
  | atLeast (least : Int) (words : String)
  | above (bound : Int) (words : String)
  | multipleOf (step : Nat) (words : String)

namespace Limit

/-- Whether a number keeps a limit. Of the infinities one is above every bound, and none is a
multiple. -/
def Holds : Limit → Number → Prop
  | .atLeast least _, n => n = .infinite false ∨ ∃ q, n.value? = some q ∧ (least : ℚ) ≤ q
  | .above bound _, n => n = .infinite false ∨ ∃ q, n.value? = some q ∧ (bound : ℚ) < q
  | .multipleOf step _, n => ∃ k : Int, n = .integer (step * k)

instance (limit : Limit) (n : Number) : Decidable (limit.Holds n) :=
  match limit with
  | .atLeast _ _ => decidable_of_iff _ Number.atLeast_iff
  | .above _ _ => decidable_of_iff _ Number.exceeds_iff
  | .multipleOf step _ =>
    match n with
    | .integer m => decidable_of_iff ((step : Int) ∣ m) (by simp [Holds, Dvd.dvd])
    | .fraction .. | .infinite _ | .nan => .isFalse nofun

/-- The code and the words for a number that is past a limit. -/
def excess : Limit → String × String
  | .atLeast _ words | .above _ words => ("too_small", words)
  | .multipleOf _ words => ("not_multiple_of", words)

end Limit

/-! ## 2. Shapes -/

/-- A flaw is a path, a code and a message. -/
abbrev Flaw : Type := List Loose × String × String

/-- A flaw of a field, as one of the object around it. -/
def Flaw.within (field : String) (flaw : Flaw) : Flaw := (field :: flaw.1, flaw.2)

/-- What is asked of a value. -/
inductive Shape where
  | truth
  | text
  /-- One text and no other value, with the words for all others. -/
  | literal (text : String) (words : String)
  | whole (limit : Option Limit)
  /-- Bytes in steps of so many, with the words for what is no bytes and for bytes left over. -/
  | bytes (step : Nat) (other left : String)
  | optional (shape : Shape)
  | object (fields : List (String × Shape))

/-- The flaw of a value that is of another kind than it has to be, or missing. -/
def wrongKind (expected : String) : Option Candidate → Flaw
  | none => ([], "invalid_type", "Required")
  | some v => ([], "invalid_type", "Expected " ++ expected ++ ", received " ++ v.kind.word)

def fractionFlaws : Number → List Flaw
  | .integer _ => []
  | _ => [([], "invalid_type", "Expected integer, received float")]

def limitFlaws (limit : Limit) (n : Number) : List Flaw :=
  if limit.Holds n then [] else [([], limit.excess)]

mutual

/-- All that is wrong with a value that has to be of some shape. -/
def Shape.flaws : Shape → Option Candidate → List Flaw
  | .truth, v =>
    match v with
    | some (.bool _) => []
    | _ => [wrongKind "boolean" v]
  | .text, v =>
    match v with
    | some (.string _) => []
    | _ => [wrongKind "string" v]
  | .literal text words, v =>
    match v with
    | some (.string s) => if s = text then [] else [([], "invalid_literal", words)]
    | _ => [([], "invalid_literal", words)]
  | .whole limit, v =>
    match v with
    | some (.number .nan) => [wrongKind "number" v]
    | some (.number n) => fractionFlaws n ++ limit.toList.flatMap fun l => limitFlaws l n
    | _ => [wrongKind "number" v]
  | .bytes step other left, v =>
    match v with
    | some (.bytes content) => if step ∣ content.length then [] else [([], "custom", left)]
    | _ => [([], "custom", other)]
  | .optional shape, v =>
    match v with
    | none => []
    | some _ => shape.flaws v
  | .object fields, v =>
    match v.bind Candidate.members? with
    | some members => fieldFlaws fields members
    | none => [wrongKind "object" v]
termination_by structural shape => shape

/-- The flaws of the fields of an object, one field after the other. -/
def fieldFlaws : List (String × Shape) → List (String × Candidate) → List Flaw
  | [], _ => []
  | (field, shape) :: rest, members =>
    (shape.flaws (Named.get? field members)).map (Flaw.within field) ++ fieldFlaws rest members
termination_by structural fields => fields

end

/-- A check is decided by flaws: it rejects with all of them, in order, and accepts when there are
none. -/
structure DecidedBy (flaws : List Flaw) {α : Type} (outcome : Except (List Issue) α) : Prop where
  rejected : ∀ issues, outcome = .error issues → issues.map told = flaws
  accepted : (∃ a, outcome = .ok a) ↔ flaws = []

theorem decidedBy_of_issues (issues : List Issue) {α : Type} (a : α) :
    DecidedBy (issues.map told) (match issues with
      | [] => .ok a
      | issues => .error issues : Except (List Issue) α) := by
  cases issues with
  | nil => exact ⟨nofun, fun _ => rfl, fun _ => ⟨a, rfl⟩⟩
  | cons issue rest =>
    constructor
    · rintro _ ⟨⟩
      rfl
    · exact ⟨nofun, nofun⟩

theorem DecidedBy.exists_error {flaws : List Flaw} {α : Type} {outcome : Except (List Issue) α}
    (decided : DecidedBy flaws outcome) (flawed : flaws ≠ []) :
    ∃ issues, outcome = .error issues ∧ issues.map told = flaws := by
  cases outcome with
  | error issues => exact ⟨issues, rfl, decided.rejected issues rfl⟩
  | ok a => exact absurd (decided.accepted.1 ⟨a, rfl⟩) flawed

theorem fieldFlaws_eq_nil_iff {fields : List (String × Shape)}
    {members : List (String × Candidate)} :
    fieldFlaws fields members = [] ↔ ∀ f ∈ fields, f.2.flaws (Named.get? f.1 members) = [] := by
  induction fields with
  | nil => simp [fieldFlaws]
  | cons f rest ih =>
    rw [fieldFlaws, List.append_eq_nil_iff, List.map_eq_nil_iff, ih, List.forall_mem_cons]

mutual

/-- The part of a value that a shape declares: of an object its fields in the order of their
declaration, without any other member. -/
def Shape.prune : Shape → Json → Json
  | .object fields, v =>
    match v with
    | .object members => .object (pruneFields fields members)
    | _ => v
  | .optional shape, v => shape.prune v
  | .truth, v | .text, v | .literal _ _, v | .whole _, v | .bytes _ _ _, v => v
termination_by structural shape => shape

def pruneFields : List (String × Shape) → List (String × Json) → List (String × Json)
  | [], _ => []
  | (field, shape) :: rest, members =>
    match Named.get? field members with
    | some v => (field, shape.prune v) :: pruneFields rest members
    | none => pruneFields rest members
termination_by structural fields => fields

end

theorem pruneFields_cons {field : String} {shape : Shape} {fields : List (String × Shape)}
    {members kept : List (String × Json)} {v w : Json} (found : Named.get? field members = some v)
    (same : shape.prune v = w) (rest : pruneFields fields members = kept) :
    pruneFields ((field, shape) :: fields) members = (field, w) :: kept := by
  rw [pruneFields, found, ← same, ← rest]

/-! ## 3. The checks of single values -/

/-- A fault of a value, as a flaw. -/
def Fault.flaw (f : Fault) : Flaw := ([], f.code, f.message)

/-- The faults of a field have the name of the field as their path. -/
theorem told_under (field : String) (faults : List Fault) :
    (Issue.under [field] faults).map told = (faults.map Fault.flaw).map (Flaw.within field) := by
  rw [Issue.under, List.map_map, List.map_map]
  rfl

section

variable {field : String} {shape : Shape} {issues : List Issue} {fields : List (String × Shape)}
  {members : List (String × Candidate)}

/-- Issues are told field by field. -/
theorem told_append {first : List Issue}
    (same : (shape.flaws (Named.get? field members)).map (Flaw.within field) = first.map told)
    (rest : issues.map told = fieldFlaws fields members) :
    (first ++ issues).map told = fieldFlaws ((field, shape) :: fields) members := by
  rw [List.map_append, ← same, rest, fieldFlaws]

theorem told_under_append {faults : List Fault}
    (same : shape.flaws (Named.get? field members) = faults.map Fault.flaw)
    (rest : issues.map told = fieldFlaws fields members) :
    (Issue.under [field] faults ++ issues).map told =
      fieldFlaws ((field, shape) :: fields) members :=
  told_append (by rw [told_under, same]) rest

theorem told_last {last : List Issue}
    (same : (shape.flaws (Named.get? field members)).map (Flaw.within field) = last.map told) :
    last.map told = fieldFlaws [(field, shape)] members := by
  rw [← List.append_nil last]
  exact told_append same rfl

theorem told_under_last {faults : List Fault}
    (same : shape.flaws (Named.get? field members) = faults.map Fault.flaw) :
    (Issue.under [field] faults).map told = fieldFlaws [(field, shape)] members :=
  told_last (by rw [told_under, same])

end

/-- A value is of some kind unless it is missing. -/
theorem flaw_wrongKind (expected : Kind) (v : Option Candidate) :
    (Fault.wrongKind expected (kindOf v)).flaw = wrongKind expected.word v := by
  cases v with
  | none => rfl
  | some v =>
    cases v with
    | number n => cases n <;> rfl
    | _ => rfl

/-- A check of an object that looks for the flaws of its fields is decided by the flaws of the
object. What has no members has that one flaw. -/
theorem decidedBy_of_members {fields : List (String × Shape)} {candidate : Candidate}
    {issuesOf : List (String × Candidate) → List Issue} {α : Type}
    {make : List (String × Candidate) → α}
    (same : ∀ members, candidate.members? = some members →
      (issuesOf members).map told = fieldFlaws fields members) :
    DecidedBy ((Shape.object fields).flaws (some candidate))
      (match candidate.members? with
        | none => .error [⟨[], .wrongKind .object candidate.kind⟩]
        | some members =>
          match issuesOf members with
          | [] => .ok (make members)
          | issues => .error issues : Except (List Issue) α) := by
  rw [Shape.flaws, Option.bind_some]
  cases given : candidate.members? with
  | none =>
    constructor
    · rintro _ ⟨⟩
      exact congrArg ([·]) (flaw_wrongKind .object (some candidate))
    · exact ⟨nofun, nofun⟩
  | some members =>
    simp only [← same members given]
    exact decidedBy_of_issues (issuesOf members) (make members)

section

variable (v : Option Candidate)

theorem flaws_truth : Shape.truth.flaws v = (boolFaults v).map Fault.flaw := by
  have other := (flaw_wrongKind .boolean v).symm
  cases v with
  | none => rfl
  | some v =>
    cases v with
    | bool b => rfl
    | _ => exact congrArg ([·]) other

theorem flaws_text : Shape.text.flaws v = (stringFaults v).map Fault.flaw := by
  have other := (flaw_wrongKind .string v).symm
  cases v with
  | none => rfl
  | some v =>
    cases v with
    | string s => rfl
    | _ => exact congrArg ([·]) other

/-- A number is looked at as far as its own limit goes. -/
theorem flaws_whole {limit : Option Limit} {more : Number → List Fault}
    (same : ∀ n, v = some (.number n) → n ≠ .nan →
      (limit.toList.flatMap fun l => limitFlaws l n) = (more n).map Fault.flaw) :
    (Shape.whole limit).flaws v = (wholeFaults more v).map Fault.flaw := by
  have other := (flaw_wrongKind .number v).symm
  cases v with
  | none => rfl
  | some v =>
    cases v with
    | number n =>
      cases n with
      | nan => rfl
      | _ =>
        have limits := same _ rfl (by simp)
        simp only [Shape.flaws, wholeFaults, limits, List.map_append]
        rfl
    | _ => exact congrArg ([·]) other

end

/-- Switches are told one after the other. -/
theorem told_switches_append {issues : List Issue} {fields : List (String × Shape)}
    {members : List (String × Candidate)} (rest : issues.map told = fieldFlaws fields members)
    (switches : List Switch) :
    ((switches.flatMap fun s => Issue.under [s.field] (boolFaults (Named.get? s.field members))) ++
      issues).map told =
        fieldFlaws ((switches.map fun s => (s.field, Shape.truth)) ++ fields) members := by
  induction switches with
  | nil => exact rest
  | cons s more ih =>
    rw [List.flatMap_cons, List.append_assoc]
    exact told_under_append (flaws_truth _) ih

theorem limitFlaws_atLeast (least : Int) (words : String) (n : Number) :
    limitFlaws (.atLeast least words) n =
      (if n.atLeast least then [] else [Fault.tooSmall words]).map Fault.flaw := by
  have same : Limit.Holds (.atLeast least words) n ↔ n.atLeast least = true :=
    Number.atLeast_iff.symm
  simp only [limitFlaws, same, apply_ite (List.map Fault.flaw)]
  rfl

theorem limitFlaws_above (bound : Int) (words : String) (n : Number) :
    limitFlaws (.above bound words) n =
      (if n.exceeds bound then [] else [Fault.tooSmall words]).map Fault.flaw := by
  have same : Limit.Holds (.above bound words) n ↔ n.exceeds bound = true :=
    Number.exceeds_iff.symm
  simp only [limitFlaws, same, apply_ite (List.map Fault.flaw)]
  rfl

/-- Of a number that is written out or infinite, the check of multiples says what they are. -/
theorem limitFlaws_multipleOf (step : Nat) (words : String) {n : Number}
    (clear : (∃ m : Int, n = .integer m ∧ m.natAbs < Number.exponentFrom) ∨
      ∃ negative, n = .infinite negative) :
    limitFlaws (.multipleOf step words) n =
      (if n.isMultipleOf step then [] else [Fault.notMultiple words]).map Fault.flaw := by
  have same : Limit.Holds (.multipleOf step words) n ↔ n.isMultipleOf step = true := by
    rcases clear with ⟨m, rfl, written⟩ | ⟨negative, rfl⟩
    · simp only [Limit.Holds, Number.integer.injEq, Number.isMultipleOf, if_pos written, beq_iff_eq]
      exact Int.dvd_iff_emod_eq_zero
    · simp [Limit.Holds, Number.isMultipleOf]
  simp only [limitFlaws, same, apply_ite (List.map Fault.flaw)]
  rfl

end Check

end BenchSettings
