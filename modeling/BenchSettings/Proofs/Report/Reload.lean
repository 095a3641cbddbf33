/-
BenchSettings.Proofs.Report.Reload — a report is enough to run again.

A report says of every setting what a variable would have to say:
`environment` writes them down, "1" and "0" for the switches, decimal texts
for the quantities, and the reported bytes in hex for a pattern that was
given. `load_environment` says that this environment loads without a warning,
and as what was reported.

The first load may have been lenient: its texts can have blanks, tails, signs
and numbers out of range, and its pattern can be lower-case and no whole
element. Nothing of that is left in the report. The numbers in it are in range
and in plain decimal (`read_decimal`), and the bytes are whole elements
already, so that decoding their digits repeats them no further (`decode_hex`).
-/
import BenchSettings.Loading
import BenchSettings.Proofs.Setting.Reading
import BenchSettings.Report.Document

namespace BenchSettings

namespace Report.Document

/-! ## 1. The environment a report describes -/

/-- The text of the fill pattern that was reported, if one was given. -/
def patternText (d : Document) : Option String := if d.specified then some d.hex else none

def switchText (on : Bool) : String := if on then "1" else "0"

/-- What a report says of each setting, as the texts of the variables. -/
def environment (d : Document) : Environment :=
  .ofList <|
    Switch.all.map (fun s => (s.name, some (switchText (d.switch s)))) ++
      Quantity.all.map (fun q => (q.name, some (Text.decimal (d.quantity q)))) ++
      [(fillPatternVariable, d.patternText)]

variable (d : Document)

theorem get?_environment_switch (s : Switch) :
    d.environment.get? s.name = some (switchText (d.switch s)) := by
  rw [environment, Environment.get?_ofList]
  cases s <;> rfl

theorem get?_environment_quantity (q : Quantity) :
    d.environment.get? q.name = some (Text.decimal (d.quantity q)) := by
  rw [environment, Environment.get?_ofList]
  cases q <;> rfl

theorem patternText_environment : d.environment.patternText = d.patternText := by
  rw [Environment.patternText, environment, Environment.get?_ofList]
  rfl

/-! ## 2. Reading it -/

theorem switchText_eq_decimal (on : Bool) : switchText on = Text.decimal on.toInt := by
  cases on <;> decide

theorem reading_environment_switch (s : Switch) :
    d.environment.reading (.switch s) = ⟨(d.switch s).toInt, none⟩ := by
  refine read_decimal ?_ ?_ ?_ _
  · cases d.switch s <;> decide
  · cases d.switch s <;> decide
  · rw [← switchText_eq_decimal]
    exact d.get?_environment_switch s

theorem switchValue_environment (s : Switch) : d.environment.switchValue s = d.switch s := by
  rw [Environment.switchValue, reading_environment_switch]
  cases d.switch s <;> rfl

/-- The reported quantities are in the range of whole numbers that settings have. -/
def InRange : Prop := ∀ q : Quantity, minWhole ≤ d.quantity q ∧ d.quantity q ≤ maxWhole

variable {d}

theorem reading_environment_quantity (range : d.InRange) (q : Quantity) :
    d.environment.reading (.quantity q) = ⟨d.quantity q, none⟩ :=
  read_decimal (range q).1 (range q).2 (d.get?_environment_quantity q) _

theorem quantityValue_environment (range : d.InRange) (q : Quantity) :
    d.environment.quantityValue q = d.quantity q := by
  rw [Environment.quantityValue, reading_environment_quantity range]

/-- Nothing in a report is worth a warning. -/
theorem warnings_environment (range : d.InRange) : d.environment.warnings = [] := by
  refine List.filterMap_eq_nil_iff.2 fun s _ => ?_
  cases s with
  | switch s => rw [reading_environment_switch]
  | quantity q => rw [reading_environment_quantity range]

/-! ## 3. Spelling the pattern as reported -/

variable (c : Configuration)

/-- A configuration with its pattern spelled as it is reported. -/
def respelled : Configuration := { c with patternText := (ofConfiguration c).patternText }

theorem patternText_ofConfiguration :
    (ofConfiguration c).patternText = c.patternText.map fun _ => FillPattern.hex c.pattern := by
  unfold patternText ofConfiguration
  cases c.patternText <;> rfl

/-- How the pattern was spelled makes no difference to a report, only whether it was given. -/
theorem ofConfiguration_respelled : ofConfiguration (respelled c) = ofConfiguration c := by
  rw [respelled, patternText_ofConfiguration]
  unfold ofConfiguration
  rw [Option.isSome_map]

end Report.Document

/-! ## 4. Loading again -/

namespace Environment

open Report

/-- The bytes of a loaded pattern are read back from the report, and none from an unset one. -/
theorem decode_patternText {env : Environment} {pattern : List UInt8}
    (decoded : FillPattern.decode env.patternText = .ok pattern) :
    FillPattern.decode (Document.ofConfiguration (env.configurationOf pattern)).patternText =
      .ok pattern := by
  rw [Document.patternText_ofConfiguration, configurationOf]
  cases given : env.patternText with
  | none =>
    rw [given] at decoded
    exact decoded
  | some text =>
    exact FillPattern.decode_hex (FillPattern.length_decode_mod decoded)

/-- What is reported of a load is in range, whether the variables were set or not. -/
theorem inRange_ofConfiguration (env : Environment) (pattern : List UInt8) :
    (Document.ofConfiguration (env.configurationOf pattern)).InRange :=
  env.quantityValue_mem

/-- The report on what was read, read again, differs at most in how the pattern is spelled. -/
theorem configurationOf_environment (env : Environment) (pattern : List UInt8) :
    (Document.ofConfiguration (env.configurationOf pattern)).environment.configurationOf pattern =
      Document.respelled (env.configurationOf pattern) := by
  have range := env.inRange_ofConfiguration pattern
  rw [configurationOf, funext (Document.switchValue_environment _),
    funext (Document.quantityValue_environment range), Document.patternText_environment]
  rfl

/-- What was loaded is loaded again from the report on it, without a warning: every switch, every
quantity and the bytes of the pattern are the same, a pattern that was given is now spelled as it
was reported, and the report is the same again. -/
theorem load_environment {env : Environment} {loaded : Loaded} (loads : env.load = .ok loaded) :
    ∃ again : Configuration,
      (Document.ofConfiguration loaded.configuration).environment.load = .ok ⟨again, []⟩ ∧
      again.switch = loaded.configuration.switch ∧
      again.quantity = loaded.configuration.quantity ∧
      again.pattern = loaded.configuration.pattern ∧
      again.patternText = loaded.configuration.patternText.map (fun _ =>
        (Document.ofConfiguration loaded.configuration).hex) ∧
      Document.ofConfiguration again = Document.ofConfiguration loaded.configuration := by
  obtain ⟨pattern, decoded, holds, rfl⟩ := (env.load_eq_ok_iff loaded).1 loads
  have range := env.inRange_ofConfiguration pattern
  have same := env.configurationOf_environment pattern
  refine ⟨Document.respelled (env.configurationOf pattern),
    ((Document.environment _).load_eq_ok_iff _).2 ⟨pattern, ?decodes, ?obeys, ?loaded⟩,
    rfl, rfl, rfl, Document.patternText_ofConfiguration _, Document.ofConfiguration_respelled _⟩
  case decodes =>
    rw [Document.patternText_environment]
    exact decode_patternText decoded
  case obeys =>
    intro q
    rw [Document.quantityValue_environment range]
    exact holds q
  case loaded =>
    rw [same, Document.warnings_environment range]

/-- An environment with a tail, a negative number, a number beyond 32 bits, and a lower-case pattern
that is no whole element. -/
def unruly : Environment :=
  .ofList
    [("USE_HIP_CALL", some "7x"), ("BYTE_OFFSET", some " -8"),
     ("NUM_ITERATIONS", some "+99999999999"), ("FILL_PATTERN", some "c0ffee")]

theorem load_environment_unruly :
    ∃ loaded, unruly.load = .ok loaded ∧ loaded.warnings.length = 2 ∧
      (Document.ofConfiguration loaded.configuration).hex = "C0FFEEC0FFEEC0FFEEC0FFEE" ∧
      ∃ again : Configuration,
        (Document.ofConfiguration loaded.configuration).environment.load = .ok ⟨again, []⟩ ∧
        again.quantity .iterations = 2147483647 ∧
        again.patternText = some "C0FFEEC0FFEEC0FFEEC0FFEE" ∧
        Document.ofConfiguration again = Document.ofConfiguration loaded.configuration := by
  have loads : unruly.load = .ok ⟨unruly.configurationOf
      [0xC0, 0xFF, 0xEE, 0xC0, 0xFF, 0xEE, 0xC0, 0xFF, 0xEE, 0xC0, 0xFF, 0xEE],
      unruly.warnings⟩ :=
    (unruly.load_eq_ok_iff _).2 ⟨_, rfl, fun q => by cases q <;> decide +kernel, rfl⟩
  obtain ⟨again, loadsAgain, -, quantity, -, spelled, report⟩ := load_environment loads
  refine ⟨_, loads, by decide +kernel, by decide +kernel, again, loadsAgain, ?_, ?_, report⟩
  · rw [quantity]
    decide +kernel
  · rw [spelled]
    decide +kernel

end Environment

end BenchSettings
