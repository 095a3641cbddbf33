/-
BenchSettings.Loading — loading a configuration from an environment.

Loading reads the twelve whole-number settings, each leniently and with its
warning, then decodes the fill pattern, then hands all that was read to the
check of configurations. The error of a check that fails is made from the
first issue it lists (`rangeError?`). An issue about anything but a quantity
has no such error; `attempt` keeps that outcome apart from all others, and
`attempt_eq_ok` says that it never comes about, so that `load` has a result
for every environment.

`load_eq` says what the result is: the check lists exactly the quantities that
break their rules (`configurationIssues_candidate`), so a bad pattern is the
error, else the first quantity that breaks its rule, and else everything that
was read is the configuration.
-/
import BenchSettings.Check.Configuration

namespace BenchSettings

/-! ## 1. Reading -/

namespace Environment

/-- Reads one of the whole-number settings. -/
def reading (env : Environment) (s : Setting) : Reading := env.read s.name s.default

/-- The value of a switch: on for every number but 0. -/
def switchValue (env : Environment) (s : Switch) : Bool := (env.reading (.switch s)).value != 0

def quantityValue (env : Environment) (q : Quantity) : Int := (env.reading (.quantity q)).value

def patternText (env : Environment) : Option String := env.get? fillPatternVariable

/-- The warnings about an environment, in reading order. -/
def warnings (env : Environment) : List Warning :=
  Setting.all.filterMap fun s => (env.reading s).warning

/-- What was read, field by field. -/
def members (env : Environment) (pattern : List UInt8) : List (String × Check.Candidate) :=
  Switch.all.map (fun s => (s.field, .bool (env.switchValue s))) ++
    Quantity.all.map (fun q => (q.field, .number (.integer (env.quantityValue q)))) ++
    [(Check.patternField, .bytes pattern)] ++
    (env.patternText.map fun text => (Check.patternTextField, .string text)).toList

/-! ## 2. Loading -/

/-- The quantity that is reported under a field. -/
def quantityOf? (field : Text.Loose) : Option Quantity :=
  Quantity.all.find? fun q => Text.Loose.ofString q.field == field

/-- The error for a configuration with issues. It is about the quantity under whose field the first
of them is. -/
def rangeError? (issues : List Check.Issue) : Option LoadError := do
  let issue ← issues.head?
  let field ← issue.path.head?
  let q ← quantityOf? field
  return .range ⟨q, issue.fault.message⟩

/-- Loads the configuration of an environment, unless it has issues of which none makes an error. -/
def attempt (env : Environment) : Except (List Check.Issue) (Except LoadError Loaded) :=
  match FillPattern.decode env.patternText with
  | .error e => .ok (.error (.pattern e))
  | .ok pattern =>
    match Check.configuration (.object (env.members pattern)) with
    | .ok c => .ok (.ok ⟨c, env.warnings⟩)
    | .error issues =>
      match rangeError? issues with
      | some e => .ok (.error e)
      | none => .error issues

/-! ## 3. What the check says of what was read -/

/-- The first quantity whose value breaks its rule. -/
def firstBreach? (env : Environment) : Option Quantity :=
  Quantity.all.find? fun q => !q.rule.holds (env.quantityValue q)

/-- The settings of an environment, once its pattern is decoded. -/
def configurationOf (env : Environment) (pattern : List UInt8) : Configuration where
  switch := env.switchValue
  quantity := env.quantityValue
  pattern := pattern
  patternText := env.patternText

theorem quantityValue_mem (env : Environment) (q : Quantity) :
    minWhole ≤ env.quantityValue q ∧ env.quantityValue q ≤ maxWhole := by
  simp only [quantityValue, reading, read]
  split
  · cases q <;> decide
  · exact saturated_mem _

theorem natAbs_quantityValue (env : Environment) (q : Quantity) :
    (env.quantityValue q).natAbs < Number.exponentFrom := by
  have range := env.quantityValue_mem q
  simp only [minWhole, maxWhole, Number.exponentFrom, Number.positionalPlaces] at *
  omega

section

variable (env : Environment) (pattern : List UInt8)

/-- What was read is the configuration, field by field. -/
theorem members_eq :
    env.members pattern = Check.configurationMembers (env.configurationOf pattern) := rfl

/-- The settings that a check takes over are the ones that were read. -/
theorem configurationOf_members :
    Check.configurationOf (env.members pattern) = env.configurationOf pattern := by
  rw [members_eq, Check.configurationOf_configurationMembers]

/-- Whole elements that come with what was read have an issue for each broken rule, in order. -/
theorem configurationIssues_members (whole : pattern.length % elementSize = 0) :
    Check.configurationIssues (env.members pattern) =
      (Quantity.all.filter fun q => !q.rule.holds (env.quantityValue q)).map fun q =>
        ⟨[q.field], Check.ruleFault q⟩ := by
  rw [members_eq]
  exact Check.configurationIssues_configurationMembers env.natAbs_quantityValue whole

end

theorem quantityOf?_field (q : Quantity) : quantityOf? q.field = some q := by
  cases q <;> decide

/-- The error of broken rules is about the first quantity that breaks its own. -/
theorem rangeError?_map (qs : List Quantity) :
    rangeError? (qs.map fun q => ⟨[q.field], Check.ruleFault q⟩) =
      qs.head?.map fun q => .range ⟨q, q.ruleText⟩ := by
  cases qs with
  | nil => rfl
  | cons q rest => simp [rangeError?, quantityOf?_field, Check.message_ruleFault]

/-! ## 4. What loading gives -/

/-- Of a pattern that decodes and whole numbers, the check finds the first broken rule first. -/
theorem configuration_members (env : Environment) {pattern : List UInt8}
    (whole : pattern.length % elementSize = 0) :
    match env.firstBreach? with
    | none => Check.configuration (.object (env.members pattern)) =
        .ok (env.configurationOf pattern)
    | some q => ∃ issues, Check.configuration (.object (env.members pattern)) = .error issues ∧
        rangeError? issues = some (.range ⟨q, q.ruleText⟩) := by
  have found := env.configurationIssues_members pattern whole
  have first : env.firstBreach? =
      (Quantity.all.filter fun q => !q.rule.holds (env.quantityValue q)).head? :=
    List.head?_filter.symm
  generalize (Quantity.all.filter fun q => !q.rule.holds (env.quantityValue q)) = breaches at *
  rw [Check.configuration_object, found, first, configurationOf_members]
  cases breaches with
  | nil => rfl
  | cons q rest => exact ⟨_, rfl, rangeError?_map (q :: rest)⟩

/-- Loading always has a result: an issue that makes no error never comes first. -/
theorem attempt_eq_ok (env : Environment) :
    env.attempt = .ok
      (match FillPattern.decode env.patternText with
      | .error e => .error (.pattern e)
      | .ok pattern =>
        match env.firstBreach? with
        | some q => .error (.range ⟨q, q.ruleText⟩)
        | none => .ok ⟨env.configurationOf pattern, env.warnings⟩) := by
  unfold attempt
  cases decoded : FillPattern.decode env.patternText with
  | error e => rfl
  | ok pattern =>
    have checked := env.configuration_members (FillPattern.length_decode_mod decoded)
    cases h : env.firstBreach? with
    | none =>
      rw [h] at checked
      simp only [checked]
    | some q =>
      rw [h] at checked
      obtain ⟨issues, failed, error⟩ := checked
      simp only [failed, error]

def load (env : Environment) : Except LoadError Loaded :=
  match h : env.attempt with
  | .ok result => result
  | .error _ => nomatch h.symm.trans env.attempt_eq_ok

theorem attempt_eq_load (env : Environment) : env.attempt = .ok env.load := by
  unfold load
  split
  · assumption
  · rename_i h
    exact nomatch h.symm.trans env.attempt_eq_ok

/-- A bad pattern is the error, else the first broken rule, else all that was read is loaded. -/
theorem load_eq (env : Environment) :
    env.load =
      match FillPattern.decode env.patternText with
      | .error e => .error (.pattern e)
      | .ok pattern =>
        match env.firstBreach? with
        | some q => .error (.range ⟨q, q.ruleText⟩)
        | none => .ok ⟨env.configurationOf pattern, env.warnings⟩ :=
  Except.ok.inj (env.attempt_eq_load.symm.trans env.attempt_eq_ok)

theorem firstBreach?_eq_none_iff (env : Environment) :
    env.firstBreach? = none ↔ ∀ q : Quantity, q.rule.holds (env.quantityValue q) = true := by
  simp only [firstBreach?, List.find?_eq_none, Bool.not_eq_true', Bool.not_eq_false]
  exact ⟨fun h q => h q (Quantity.mem_all q), fun h q _ => h q⟩

/-- Loading succeeds exactly when the pattern decodes and every rule holds. -/
theorem load_eq_ok_iff (env : Environment) (loaded : Loaded) :
    env.load = .ok loaded ↔
      ∃ pattern, FillPattern.decode env.patternText = .ok pattern ∧
        (∀ q : Quantity, q.rule.holds (env.quantityValue q) = true) ∧
        loaded = ⟨env.configurationOf pattern, env.warnings⟩ := by
  rw [load_eq]
  split
  · rename_i e h; simp [h]
  · rename_i pattern h
    rw [← firstBreach?_eq_none_iff]
    split
    · rename_i q hq; simp [hq]
    · rename_i hq; simp [h, hq, eq_comm]

end Environment

end BenchSettings
