/-
BenchSettings.Check.Configuration — checking a candidate configuration.

A candidate configuration is an object with a member for each setting. Its
issues are those of each field, in the order of the settings table with the
fill pattern last, and no fault hides another. A candidate without issues is a
configuration; members that are no settings are dropped.

A configuration is itself a candidate (`configurationMembers`), and it is made
again from its members. `configurationIssues_configurationMembers` says what
the check can find in one: the rules that its quantities break.
-/
import BenchSettings.Check.Candidate
import BenchSettings.Configuration

namespace BenchSettings.Check

def patternField : String := "fillPattern"

def patternTextField : String := "fillPatternText"

/-! ## 1. The faults of each field -/

def ruleFaults (q : Quantity) (n : Number) : List Fault :=
  match q.rule with
  | .multipleOf step => if n.isMultipleOf step then [] else [.notMultiple q.ruleText]
  | .atLeast least => if n.atLeast least then [] else [.tooSmall q.ruleText]

/-- The fault of a whole number that breaks the rule of a quantity. -/
def ruleFault (q : Quantity) : Fault :=
  match q.rule with
  | .multipleOf _ => .notMultiple q.ruleText
  | .atLeast _ => .tooSmall q.ruleText

theorem message_ruleFault (q : Quantity) : (ruleFault q).message = q.ruleText := by
  cases q <;> rfl

/-- A whole number that is written out has the fault of the rule it breaks. -/
theorem ruleFaults_integer (q : Quantity) {n : Int} (h : n.natAbs < Number.exponentFrom) :
    ruleFaults q (.integer n) = if q.rule.holds n then [] else [ruleFault q] := by
  unfold ruleFaults ruleFault
  cases q.rule with
  | multipleOf step => simp [Number.isMultipleOf, h, Rule.holds]
  | atLeast least => simp [Number.atLeast, Rule.holds]

def patternFaults : Option Candidate → List Fault
  | some (.bytes bytes) =>
    if bytes.length % elementSize = 0 then []
    else [.custom "FILL_PATTERN must decode to a multiple of 4 bytes"]
  | _ => [.custom "FILL_PATTERN must be a byte buffer"]

def bytesOf : Option Candidate → List UInt8
  | some (.bytes bytes) => bytes
  | _ => []

def patternTextFaults : Option Candidate → List Fault
  | none => []
  | v => stringFaults v

def patternTextOf : Option Candidate → Option String
  | some (.string s) => some s
  | _ => none

/-! ## 2. The whole candidate -/

/-- The issues of the members of a candidate configuration, field by field. -/
def configurationIssues (members : List (String × Candidate)) : List Issue :=
  let field (name : String) := Named.get? name members
  Switch.all.flatMap (fun s => Issue.under [s.field] (boolFaults (field s.field))) ++
    Quantity.all.flatMap
      (fun q => Issue.under [q.field] (wholeFaults (ruleFaults q) (field q.field))) ++
    Issue.under [patternField] (patternFaults (field patternField)) ++
    Issue.under [patternTextField] (patternTextFaults (field patternTextField))

/-- The configuration that members without issues make. -/
def configurationOf (members : List (String × Candidate)) : Configuration where
  switch s := boolOf (Named.get? s.field members)
  quantity q := wholeOf (Named.get? q.field members)
  pattern := bytesOf (Named.get? patternField members)
  patternText := patternTextOf (Named.get? patternTextField members)

/-- Checks a candidate configuration: all its issues, or the configuration it is. -/
def configuration (candidate : Candidate) : Except (List Issue) Configuration :=
  match candidate.members? with
  | none => .error [⟨[], .wrongKind .object candidate.kind⟩]
  | some members =>
    match configurationIssues members with
    | [] => .ok (configurationOf members)
    | issues => .error issues

theorem configuration_object (members : List (String × Candidate)) :
    configuration (.object members) =
      match configurationIssues members with
      | [] => .ok (configurationOf members)
      | issues => .error issues := rfl

/-- A candidate is accepted exactly when it has members and these have no issue. -/
theorem configuration_eq_ok_iff {candidate : Candidate} {c : Configuration} :
    configuration candidate = .ok c ↔
      ∃ members, candidate.members? = some members ∧ configurationIssues members = [] ∧
        c = configurationOf members := by
  unfold configuration
  split
  · rename_i h; simp [h]
  · rename_i members h
    split
    · rename_i clean
      constructor
      · rintro ⟨⟩; exact ⟨members, h, clean, rfl⟩
      · rintro ⟨_, h', _, rfl⟩; cases h.symm.trans h'; rfl
    · rename_i dirty
      simp only [h, Option.some.injEq, reduceCtorEq, false_iff, not_exists, not_and]
      rintro _ rfl clean
      exact absurd clean dirty

/-! ## 3. Configurations as candidates -/

/-- A configuration field by field. A pattern text that was not given is no member. -/
def configurationMembers (c : Configuration) : List (String × Candidate) :=
  Switch.all.map (fun s => (s.field, .bool (c.switch s))) ++
    Quantity.all.map (fun q => (q.field, .number (.integer (c.quantity q)))) ++
    [(patternField, .bytes c.pattern)] ++
    (c.patternText.map fun text => (patternTextField, .string text)).toList

section

variable (c : Configuration)

theorem get?_configurationMembers_switch (s : Switch) :
    Named.get? s.field (configurationMembers c) = some (.bool (c.switch s)) := by
  cases s <;> rfl

theorem get?_configurationMembers_quantity (q : Quantity) :
    Named.get? q.field (configurationMembers c) =
      some (.number (.integer (c.quantity q))) := by
  cases q <;> rfl

theorem get?_configurationMembers_pattern :
    Named.get? patternField (configurationMembers c) = some (.bytes c.pattern) := rfl

theorem get?_configurationMembers_patternText :
    Named.get? patternTextField (configurationMembers c) =
      c.patternText.map Candidate.string := by
  unfold configurationMembers
  cases c.patternText <;> rfl

/-- A configuration is made again from its members. -/
theorem configurationOf_configurationMembers : configurationOf (configurationMembers c) = c := by
  have text : patternTextOf (c.patternText.map Candidate.string) = c.patternText := by
    cases c.patternText <;> rfl
  simp only [configurationOf, get?_configurationMembers_switch,
    get?_configurationMembers_quantity, get?_configurationMembers_pattern,
    get?_configurationMembers_patternText, text]
  rfl

end

/-- One issue for each quantity that breaks its rule, in order. -/
theorem flatMap_under_ruleFault (holds : Quantity → Bool) (qs : List Quantity) :
    qs.flatMap (fun q => Issue.under [q.field] (if holds q then [] else [ruleFault q])) =
      (qs.filter fun q => !holds q).map fun q => ⟨[q.field], ruleFault q⟩ := by
  induction qs with
  | nil => rfl
  | cons q rest ih =>
    rw [List.flatMap_cons, ih]
    by_cases h : holds q = true <;> simp [h, Issue.under]

/-- A configuration with whole elements and numbers that are written out has an issue for each
broken rule, in order, and no other. -/
theorem configurationIssues_configurationMembers {c : Configuration}
    (written : ∀ q, (c.quantity q).natAbs < Number.exponentFrom)
    (whole : c.pattern.length % elementSize = 0) :
    configurationIssues (configurationMembers c) =
      (Quantity.all.filter fun q => !q.rule.holds (c.quantity q)).map fun q =>
        ⟨[q.field], ruleFault q⟩ := by
  have switches (s : Switch) : boolFaults (some (.bool (c.switch s))) = [] := rfl
  have numbers (q : Quantity) :
      wholeFaults (ruleFaults q) (some (.number (.integer (c.quantity q)))) =
        if q.rule.holds (c.quantity q) then [] else [ruleFault q] := by
    simp [wholeFaults, Number.isInteger, ruleFaults_integer q (written q)]
  have text : patternTextFaults (c.patternText.map Candidate.string) = [] := by
    cases c.patternText <;> rfl
  have bytes : patternFaults (some (.bytes c.pattern)) = [] := by
    simp only [patternFaults, whole, if_true]
  simp only [configurationIssues, get?_configurationMembers_switch,
    get?_configurationMembers_quantity, get?_configurationMembers_pattern,
    get?_configurationMembers_patternText, switches, numbers, flatMap_under_ruleFault, text, bytes]
  simp [Issue.under]

end BenchSettings.Check
