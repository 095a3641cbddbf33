/-
BenchSettings.Proofs.Check.Candidates — what becomes of a candidate
configuration.

A candidate is anything at all, and what is wrong with it is said by the shape
that a configuration has (`configurationShape`), which knows nothing of the
check. The check lists exactly these flaws in the order of the fields
(`told_configurationIssues`), so the first one that a user is told of is the
first in this order, and a candidate is accepted when there is none
(`flaws_decide_configuration`).

What is accepted are the fields as they were given, no more and no less
(`Carries`). So the configuration that comes out is accepted again and does not
change.

The byte offset is asked to be whole and exact, if it is finite. A multiple is
looked for in the text of a number, and of other numbers the text is not the
number (`Number.isQuotientMultipleOf`).
-/
import BenchSettings.Proofs.Check.Accepted
import BenchSettings.Proofs.Check.Shape

namespace BenchSettings.Check

open EnvFile (told)

/-! ## 1. The shape of configurations -/

/-- The fields of a configuration in the order of their declaration. -/
def configurationFields : List (String × Shape) :=
  [("useHipCall", .truth),
   ("useMemset", .truth),
   ("useSingleSync", .truth),
   ("useInteractive", .truth),
   ("combineTiming", .truth),
   ("showAddr", .truth),
   ("outputToCsv", .truth),
   ("byteOffset", .whole (some (.multipleOf 4 "BYTE_OFFSET must be set to multiple of 4"))),
   ("numWarmups", .whole (some (.atLeast 0 "NUM_WARMUPS must be set to a non-negative number"))),
   ("numIterations", .whole (some (.atLeast 1 "NUM_ITERATIONS must be set to a positive number"))),
   ("samplingFactor", .whole (some (.atLeast 1 "SAMPLING_FACTOR must be greater or equal to 1"))),
   ("numCpuPerLink", .whole (some (.atLeast 1 "NUM_CPU_PER_LINK must be greater or equal to 1"))),
   ("fillPattern",
    .bytes 4 "FILL_PATTERN must be a byte buffer"
      "FILL_PATTERN must decode to a multiple of 4 bytes"),
   ("fillPatternText", .optional .text)]

def configurationShape : Shape := .object configurationFields

/-- What a candidate has under a name. -/
def Candidate.field? (name : String) (v : Candidate) : Option Candidate :=
  v.members?.bind (Named.get? name)

/-- A number that is whole and exact, or none that is finite. -/
def Sound (n : Number) : Prop :=
  (∃ m : Int, n = .integer m ∧ m.natAbs ≤ 9007199254740991) ∨ (∃ negative, n = .infinite negative) ∨
    n = .nan

/-! ## 2. The flaws of single fields -/

theorem flaws_quantity (q : Quantity) (limit : Limit) (v : Option Candidate)
    (same : ∀ n, v = some (.number n) → n ≠ .nan →
      limitFlaws limit n = (ruleFaults q n).map Fault.flaw) :
    (Shape.whole (some limit)).flaws v = (wholeFaults (ruleFaults q) v).map Fault.flaw := by
  refine flaws_whole v fun n given number => ?_
  simpa using same n given number

theorem flaws_least (q : Quantity) {bound : Int} (rule : q.rule = .atLeast bound)
    (v : Option Candidate) :
    (Shape.whole (some (.atLeast bound q.ruleText))).flaws v =
      (wholeFaults (ruleFaults q) v).map Fault.flaw := by
  refine flaws_quantity q _ v fun n _ _ => ?_
  rw [limitFlaws_atLeast, ruleFaults, rule]

theorem flaws_byteOffset {v : Option Candidate} (sound : ∀ n, v = some (.number n) → Sound n) :
    (Shape.whole (some (.multipleOf 4 Quantity.byteOffset.ruleText))).flaws v =
      (wholeFaults (ruleFaults .byteOffset) v).map Fault.flaw := by
  refine flaws_quantity .byteOffset _ v fun n given number => limitFlaws_multipleOf 4 _ ?_
  rcases sound n given with ⟨m, rfl, exact⟩ | infinite | rfl
  · exact .inl ⟨m, rfl, Nat.lt_of_le_of_lt exact (by decide)⟩
  · exact .inr infinite
  · exact absurd rfl number

theorem flaws_pattern (v : Option Candidate) :
    (Shape.bytes 4 "FILL_PATTERN must be a byte buffer"
      "FILL_PATTERN must decode to a multiple of 4 bytes").flaws v =
      (patternFaults v).map Fault.flaw := by
  cases v with
  | none => rfl
  | some v =>
    cases v with
    | bytes content =>
      by_cases whole : content.length % elementSize = 0
      · rw [patternFaults, if_pos whole]
        exact if_pos (Nat.dvd_of_mod_eq_zero whole)
      · rw [patternFaults, if_neg whole]
        exact if_neg fun multiple => whole (Nat.mod_eq_zero_of_dvd multiple)
    | _ => rfl

theorem flaws_patternText (v : Option Candidate) :
    (Shape.optional .text).flaws v = (patternTextFaults v).map Fault.flaw := by
  cases v with
  | none => rfl
  | some v => exact flaws_text (some v)

/-! ## 3. The whole candidate -/

/-- The issues of a candidate are its flaws, field by field. -/
theorem told_configurationIssues {members : List (String × Candidate)}
    (offset : ∀ n, Named.get? "byteOffset" members = some (.number n) → Sound n) :
    (configurationIssues members).map told = fieldFlaws configurationFields members := by
  simp only [configurationIssues, Quantity.all, List.flatMap_cons, List.flatMap_nil,
    List.append_nil, List.append_assoc]
  refine told_switches_append ?_ Switch.all
  exact told_under_append (flaws_byteOffset offset) <|
    told_under_append (flaws_least .warmups rfl _) <|
    told_under_append (flaws_least .iterations rfl _) <|
    told_under_append (flaws_least .samplingFactor rfl _) <|
    told_under_append (flaws_least .cpuPerLink rfl _) <|
    told_under_append (flaws_pattern _) <| told_under_last (flaws_patternText _)

/-- The candidate has the fields of a configuration, as they are in it. A text that the
configuration does not have is missing from the candidate. -/
structure Carries (candidate : Candidate) (c : Configuration) : Prop where
  switch : ∀ s : Switch, candidate.field? s.field = some (.bool (c.switch s))
  quantity : ∀ q : Quantity, candidate.field? q.field = some (.number (.integer (c.quantity q)))
  pattern : candidate.field? patternField = some (.bytes c.pattern)
  patternText : candidate.field? patternTextField = c.patternText.map .string

theorem patternTextFaults_eq_nil_iff {v : Option Candidate} :
    patternTextFaults v = [] ↔ v = (patternTextOf v).map .string := by
  cases v with
  | none => simp [patternTextFaults, patternTextOf]
  | some v => cases v <;> simp [patternTextFaults, patternTextOf, stringFaults]

/-- What is accepted is what was given. -/
theorem carries_of_configuration {candidate : Candidate} {c : Configuration}
    (accepted : configuration candidate = .ok c) : Carries candidate c := by
  obtain ⟨members, given, clean, rfl⟩ := configuration_eq_ok_iff.1 accepted
  obtain ⟨switches, numbers, bytes, text⟩ := configurationIssues_eq_nil_iff.1 clean
  have field (name : String) : candidate.field? name = Named.get? name members := by
    rw [Candidate.field?, given, Option.bind_some]
  constructor
  case switch => exact fun s => (field _).trans (boolFaults_eq_nil_iff.1 (switches s))
  case quantity => exact fun q => (field _).trans (wholeFaults_eq_nil_iff.1 (numbers q)).1
  case pattern => exact (field _).trans (patternFaults_eq_nil_iff.1 bytes).1
  case patternText => exact (field _).trans (patternTextFaults_eq_nil_iff.1 text)

/-- A check looks at the declared fields only, so what was accepted is accepted again without the
other ones. -/
theorem configuration_again {candidate : Candidate} {c : Configuration}
    (accepted : configuration candidate = .ok c) :
    configuration (.object (configurationMembers c)) = .ok c := by
  have carries := carries_of_configuration accepted
  obtain ⟨members, given, clean, -⟩ := configuration_eq_ok_iff.1 accepted
  have field (name : String) : Named.get? name members = candidate.field? name := by
    rw [Candidate.field?, given, Option.bind_some]
  have same : configurationIssues (configurationMembers c) = configurationIssues members := by
    simp only [configurationIssues, field, carries.switch, carries.quantity, carries.pattern,
      carries.patternText, get?_configurationMembers_switch, get?_configurationMembers_quantity,
      get?_configurationMembers_pattern, get?_configurationMembers_patternText]
  rw [configuration_object, same, clean, configurationOf_configurationMembers]

/-- The flaws of a candidate decide what becomes of it. It is rejected with all of them, in order,
and accepted when there are none. Then it comes out with the fields that it has, and is accepted
again as it came out. -/
theorem flaws_decide_configuration {candidate : Candidate}
    (offset : ∀ n, candidate.field? "byteOffset" = some (.number n) → Sound n) :
    DecidedBy (configurationShape.flaws (some candidate)) (configuration candidate) ∧
    ∀ c, configuration candidate = .ok c →
      Carries candidate c ∧ configuration (.object (configurationMembers c)) = .ok c := by
  constructor
  · refine decidedBy_of_members fun members given => told_configurationIssues ?_
    rwa [Candidate.field?, given, Option.bind_some] at offset
  · exact fun c accepted => ⟨carries_of_configuration accepted, configuration_again accepted⟩

/-- A candidate with flaws of every sort, in every other field. -/
def flawed : Candidate :=
  .object
    [("fillPattern", .bytes [0xDE, 0xAD, 0xBE]),
     ("fillPatternText", .null),
     ("useHipCall", .string "true"),
     ("useMemset", .bool true),
     ("combineTiming", .bool false),
     ("showAddr", .bool false),
     ("outputToCsv", .bool true),
     ("extra", .null),
     ("byteOffset", .number (.infinite true)),
     ("numWarmups", .number (.fraction (-1) 1)),
     ("numIterations", .number (.integer 0)),
     ("samplingFactor", .number (.fraction 3 1)),
     ("numCpuPerLink", .number .nan)]

def flawedFlaws : List Flaw :=
  [(["useHipCall"], "invalid_type", "Expected boolean, received string"),
   (["useSingleSync"], "invalid_type", "Required"),
   (["useInteractive"], "invalid_type", "Required"),
   (["byteOffset"], "invalid_type", "Expected integer, received float"),
   (["byteOffset"], "not_multiple_of", "BYTE_OFFSET must be set to multiple of 4"),
   (["numWarmups"], "invalid_type", "Expected integer, received float"),
   (["numWarmups"], "too_small", "NUM_WARMUPS must be set to a non-negative number"),
   (["numIterations"], "too_small", "NUM_ITERATIONS must be set to a positive number"),
   (["samplingFactor"], "invalid_type", "Expected integer, received float"),
   (["numCpuPerLink"], "invalid_type", "Expected number, received nan"),
   (["fillPattern"], "custom", "FILL_PATTERN must decode to a multiple of 4 bytes"),
   (["fillPatternText"], "invalid_type", "Expected string, received null")]

theorem flaws_decide_configuration_flawed :
    (∀ n, flawed.field? "byteOffset" = some (.number n) → Sound n) ∧
    ∃ issues, configuration flawed = .error issues ∧ issues.map told = flawedFlaws := by
  have offset : ∀ n, flawed.field? "byteOffset" = some (.number n) → Sound n := by
    rintro _ ⟨⟩
    exact .inr (.inl ⟨true, rfl⟩)
  obtain ⟨decided, -⟩ := flaws_decide_configuration offset
  obtain ⟨issues, rejected, all⟩ := decided.exists_error (by decide +kernel)
  have flaws : configurationShape.flaws (some flawed) = flawedFlaws := by decide +kernel
  exact ⟨offset, issues, rejected, all.trans flaws⟩

end BenchSettings.Check
