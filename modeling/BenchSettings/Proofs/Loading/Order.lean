/-
BenchSettings.Proofs.Loading.Order — which of several faults is the error.

An environment can have many faults at once, and loading reports one. The
order that decides is said here without the loader: the fill pattern comes
before all else, and of the quantities the first in the table whose value
breaks its rule (`FirstBreach`). The loader finds that quantity by another
way, from the issues that the check of the whole configuration lists, and so
`outcome_decided` has to bring together the order of reading, the order of the
table, the order of the fields and the order of the issues.

The value of a setting is what its own variable says, or the default
(`used`), and the rules are stated as facts about integers (`Obeys`).
-/
import BenchSettings.Loading
import BenchSettings.Proofs.Setting.Reading

namespace BenchSettings

/-! ## 1. Rules and values -/

/-- The rule of a quantity, as a fact about the value. -/
def Quantity.Obeys : Quantity → Int → Prop
  | .byteOffset, n => 4 ∣ n
  | .warmups, n => 0 ≤ n
  | .iterations, n => 1 ≤ n
  | .samplingFactor, n => 1 ≤ n
  | .cpuPerLink, n => 1 ≤ n

theorem Quantity.holds_iff (q : Quantity) (n : Int) : q.rule.holds n = true ↔ q.Obeys n := by
  cases q with
  | byteOffset =>
    simp only [rule, Rule.holds, Obeys, elementSize, beq_iff_eq]
    omega
  | _ => simp only [rule, Rule.holds, Obeys, decide_eq_true_eq]

namespace Environment

/-- The integer that is used for a setting: what the text of its variable is read as, or the default
while the variable is unset. -/
def used (env : Environment) (s : Setting) : Int :=
  match env.get? s.name with
  | none => s.default
  | some text => lenient text

theorem value_reading (env : Environment) (s : Setting) : (env.reading s).value = env.used s := by
  unfold used
  cases set : env.get? s.name with
  | none => rw [reading, read_of_unset set]
  | some text => rw [reading, read_of_set set]

theorem quantityValue_eq (env : Environment) (q : Quantity) :
    env.quantityValue q = env.used (.quantity q) :=
  env.value_reading (.quantity q)

theorem switchValue_eq (env : Environment) (s : Switch) :
    env.switchValue s = (env.used (.switch s) != 0) := by
  rw [switchValue, value_reading]

/-- A switch is on exactly when its variable is set and its text is not read as 0. -/
theorem switchValue_eq_true_iff (env : Environment) (s : Switch) :
    env.switchValue s = true ↔ ∃ text, env.get? s.name = some text ∧ lenient text ≠ 0 := by
  rw [switchValue_eq, bne_iff_ne]
  simp only [used, Setting.name]
  cases env.get? s.name <;> simp [Setting.default]

/-! ## 2. The first breach -/

/-- `q` breaks its rule, and no quantity before it in the table does. -/
def FirstBreach (env : Environment) (q : Quantity) : Prop :=
  ¬q.Obeys (env.used (.quantity q)) ∧
    ∃ before after, Quantity.all = before ++ q :: after ∧
      ∀ p ∈ before, p.Obeys (env.used (.quantity p))

theorem firstBreach?_eq_some_iff (env : Environment) (q : Quantity) :
    env.firstBreach? = some q ↔ env.FirstBreach q := by
  simp only [firstBreach?, FirstBreach, List.find?_eq_some_iff_append, quantityValue_eq,
    Bool.not_eq_true', Bool.not_not, ← Bool.not_eq_true, Quantity.holds_iff]

/-- While nothing is the first breach, every rule is kept. -/
theorem firstBreach?_eq_none_iff_obeys (env : Environment) :
    env.firstBreach? = none ↔ ∀ q : Quantity, q.Obeys (env.used (.quantity q)) := by
  simp only [firstBreach?_eq_none_iff, quantityValue_eq, Quantity.holds_iff]

/-- Either every rule is kept or one quantity is the first to break its own. -/
theorem obeys_or_firstBreach (env : Environment) :
    (∀ q : Quantity, q.Obeys (env.used (.quantity q))) ∨ ∃ q, env.FirstBreach q := by
  cases h : env.firstBreach? with
  | none => exact .inl (env.firstBreach?_eq_none_iff_obeys.1 h)
  | some q => exact .inr ⟨q, (env.firstBreach?_eq_some_iff q).1 h⟩

/-! ## 3. The outcome of loading -/

theorem load_of_pattern_error {env : Environment} {e : PatternError}
    (h : FillPattern.decode env.patternText = .error e) : env.load = .error (.pattern e) := by
  rw [load_eq, h]

theorem load_of_firstBreach {env : Environment} {pattern : List UInt8} {q : Quantity}
    (h : FillPattern.decode env.patternText = .ok pattern) (breach : env.FirstBreach q) :
    env.load = .error (.range ⟨q, q.ruleText⟩) := by
  rw [load_eq, h, (env.firstBreach?_eq_some_iff q).2 breach]

theorem load_of_obeys {env : Environment} {pattern : List UInt8}
    (h : FillPattern.decode env.patternText = .ok pattern)
    (obeys : ∀ q : Quantity, q.Obeys (env.used (.quantity q))) :
    env.load = .ok ⟨env.configurationOf pattern, env.warnings⟩ := by
  rw [load_eq, h, env.firstBreach?_eq_none_iff_obeys.2 obeys]

/-- The fill pattern decodes if it is set. -/
def PatternDecodes (env : Environment) : Prop :=
  ∀ text, env.get? fillPatternVariable = some text →
    ∃ bytes, FillPattern.decode (some text) = .ok bytes

/-- An unset pattern is never at fault. -/
theorem patternDecodes_iff (env : Environment) :
    env.PatternDecodes ↔ ∃ bytes, FillPattern.decode env.patternText = .ok bytes := by
  unfold PatternDecodes patternText
  cases env.get? fillPatternVariable with
  | none => exact ⟨fun _ => ⟨[], rfl⟩, fun _ text set => nomatch set⟩
  | some text =>
    constructor
    · exact fun good => good text rfl
    · rintro decodes _ ⟨⟩
      exact decodes

/-- Loading has a result for every environment. A set pattern that does not decode is the error
whatever else is wrong; else the first quantity that breaks its rule is, with the code, the variable
and the words of that quantity; else each setting is what its own variable says. -/
theorem outcome_decided (env : Environment) :
    env.attempt = .ok env.load ∧
    (∀ text e, env.get? fillPatternVariable = some text →
      FillPattern.decode (some text) = .error e →
      env.load = .error (.pattern e) ∧ (LoadError.pattern e).name = fillPatternVariable) ∧
    ((∀ q : Quantity, q.Obeys (env.used (.quantity q))) ∨ ∃ q, env.FirstBreach q) ∧
    (env.PatternDecodes →
      (∀ q, env.FirstBreach q →
        ∃ breach, env.load = .error (.range breach) ∧ (LoadError.range breach).code = q.code ∧
          (LoadError.range breach).name = q.name ∧ (LoadError.range breach).message = q.ruleText ∧
          (LoadError.range breach).message ≠ (Check.Fault.wrongKind .integer .float).message) ∧
      ((∀ q : Quantity, q.Obeys (env.used (.quantity q))) →
        ∃ loaded, env.load = .ok loaded ∧
          (∀ s : Switch, loaded.configuration.switch s = true ↔
            ∃ text, env.get? s.name = some text ∧ lenient text ≠ 0) ∧
          ∀ q : Quantity, loaded.configuration.quantity q =
            match env.get? q.name with
            | none => q.default
            | some text => lenient text)) ∧
    ((∃ loaded, env.load = .ok loaded) ↔
      env.PatternDecodes ∧ ∀ q : Quantity, q.Obeys (env.used (.quantity q))) := by
  refine ⟨env.attempt_eq_load, ?bad, env.obeys_or_firstBreach, ?good, ?succeeds⟩
  case bad =>
    intro text e set rejected
    have decoded : FillPattern.decode env.patternText = .error e := by
      rw [patternText, set, rejected]
    exact ⟨load_of_pattern_error decoded, rfl⟩
  case good =>
    intro good
    obtain ⟨pattern, decoded⟩ := env.patternDecodes_iff.1 good
    constructor
    · intro q breach
      refine ⟨_, load_of_firstBreach decoded breach, rfl, rfl, rfl, ?_⟩
      cases q <;> decide
    · intro obeys
      refine ⟨_, load_of_obeys decoded obeys, env.switchValue_eq_true_iff, fun q => ?_⟩
      exact env.quantityValue_eq q
  case succeeds =>
    constructor
    · rintro ⟨loaded, h⟩
      obtain ⟨pattern, decoded, holds, -⟩ := (env.load_eq_ok_iff loaded).1 h
      refine ⟨env.patternDecodes_iff.2 ⟨pattern, decoded⟩, fun q => ?_⟩
      rw [← env.quantityValue_eq q]
      exact (q.holds_iff _).1 (holds q)
    · rintro ⟨good, obeys⟩
      obtain ⟨pattern, decoded⟩ := env.patternDecodes_iff.1 good
      exact ⟨_, load_of_obeys decoded obeys⟩

end Environment

end BenchSettings
