/-
BenchSettings.Proofs.Check.Reports — what becomes of a JSON value that may be a
report.

As with configurations, what is wrong with a value is said by the shape of
reports (`reportShape`), and the check lists exactly these flaws, depth first
(`told_documentIssues`). A section is a field with a shape of its own, so its
flaws stand where the section is declared and have two names in their path, and
what is wrong in it does not keep the fields behind it from being looked at.

Whether a value is a report can be said without shapes (`IsReport`). Those are
the values without a flaw (`flaws_eq_nil_iff_isReport`), and they come out with
what is no part of a report left out, at the top and in both sections
(`toJson_documentOf`). In `flaws_decide_document` this is put together with the
check accepting again what came out of it.
-/
import BenchSettings.Proofs.Check.Shape
import BenchSettings.Proofs.Report.Agreement

namespace BenchSettings.Check

open EnvFile (told)
open Report (Document documentVersion)

/-! ## 1. The shape of reports -/

def notBelowZero : Limit := .atLeast 0 "Number must be greater than or equal to 0"

def aboveZero : Limit := .above 0 "Number must be greater than 0"

def flagNames : List String :=
  ["useHipCall", "useMemset", "useSingleSync", "useInteractive", "combineTiming", "showAddr",
   "outputToCsv"]

def flagFields : List (String × Shape) := flagNames.map (·, .truth)

def patternFields : List (String × Shape) :=
  [("specified", .truth), ("hex", .text), ("byteLength", .whole (some notBelowZero))]

/-- The fields of a report in the order of their declaration. -/
def reportFields : List (String × Shape) :=
  [("version", .literal "1.0" "Invalid literal value, expected \"1.0\""),
   ("flags", .object flagFields),
   ("byteOffset", .whole none),
   ("numWarmups", .whole (some notBelowZero)),
   ("numIterations", .whole (some aboveZero)),
   ("samplingFactor", .whole (some aboveZero)),
   ("numCpuPerLink", .whole (some aboveZero)),
   ("fillPattern", .object patternFields)]

def reportShape : Shape := .object reportFields

/-! ## 2. The flaws of a report -/

theorem flaws_version (v : Option Candidate) :
    (Shape.literal "1.0" "Invalid literal value, expected \"1.0\"").flaws v =
      (versionFaults v).map Fault.flaw := by
  have words : (Fault.wrongText documentVersion).flaw =
      ([], "invalid_literal", "Invalid literal value, expected \"1.0\"") := by decide +kernel
  cases v with
  | none => exact congrArg ([·]) words.symm
  | some v =>
    cases v with
    | string s =>
      by_cases same : s = documentVersion
      · rw [versionFaults, if_pos same]
        exact if_pos same
      · rw [versionFaults, if_neg same]
        exact (if_neg same).trans (congrArg ([·]) words.symm)
    | _ => exact congrArg ([·]) words.symm

/-- The issues of a section are its flaws, if those of its members are. -/
theorem told_sectionIssues {fields : List (String × Shape)}
    {inside : List (String × Candidate) → List Issue}
    (same : ∀ members, (inside members).map told = fieldFlaws fields members)
    (name : String) (members : List (String × Candidate)) :
    ((Shape.object fields).flaws (Named.get? name members)).map (Flaw.within name) =
      (sectionIssues name members inside).map told := by
  have other := flaw_wrongKind .object (Named.get? name members)
  rw [Shape.flaws, sectionIssues, objectFaults, membersOf]
  cases (Named.get? name members).bind Candidate.members? with
  | none => exact congrArg (fun f => [Flaw.within name f]) other.symm
  | some inner =>
    simp only [Option.getD_some, ← same, List.map_map]
    rfl

theorem told_switchIssues (members : List (String × Candidate)) :
    (switchIssues members).map told = fieldFlaws flagFields members := by
  rw [← List.append_nil (switchIssues members)]
  exact told_switches_append rfl Switch.all

/-- A number that may be zero. -/
theorem flaws_notBelowZero (v : Option Candidate) :
    (Shape.whole (some notBelowZero)).flaws v =
      (wholeFaults nonnegativeFaults v).map Fault.flaw := by
  refine flaws_whole v fun n _ _ => ?_
  simpa [nonnegativeFaults, notBelowZero] using limitFlaws_atLeast 0 _ n

theorem flaws_aboveZero (v : Option Candidate) :
    (Shape.whole (some aboveZero)).flaws v = (wholeFaults positiveFaults v).map Fault.flaw := by
  refine flaws_whole v fun n _ _ => ?_
  simpa [positiveFaults, aboveZero] using limitFlaws_above 0 _ n

theorem flaws_unlimited (v : Option Candidate) :
    (Shape.whole none).flaws v = (wholeFaults (fun _ => []) v).map Fault.flaw :=
  flaws_whole v fun _ _ _ => rfl

theorem told_patternSectionIssues (members : List (String × Candidate)) :
    (patternSectionIssues members).map told = fieldFlaws patternFields members := by
  rw [patternSectionIssues, List.append_assoc]
  exact told_under_append (flaws_truth _) <| told_under_append (flaws_text _) <|
    told_under_last (flaws_notBelowZero _)

theorem told_documentIssues (members : List (String × Candidate)) :
    (documentIssues members).map told = fieldFlaws reportFields members := by
  have flags := told_sectionIssues told_switchIssues "flags" members
  have pattern := told_sectionIssues told_patternSectionIssues "fillPattern" members
  simp only [documentIssues, Quantity.all, List.flatMap_cons, List.flatMap_nil, List.append_nil,
    List.append_assoc]
  exact told_under_append (flaws_version _) <| told_append flags <|
    told_under_append (flaws_unlimited _) <| told_under_append (flaws_notBelowZero _) <|
    told_under_append (flaws_aboveZero _) <| told_under_append (flaws_aboveZero _) <|
    told_under_append (flaws_aboveZero _) <| told_last pattern

/-! ## 3. Values that are reports -/

/-- A value that is a report, with its members in any order and among any others. -/
structure IsReport (v : Json) : Prop where
  version : Json.member? "version" v = some (.string "1.0")
  flags : ∃ flags, Json.member? "flags" v = some (.object flags) ∧
    ∀ name ∈ flagNames, ∃ b, Named.get? name flags = some (.bool b)
  byteOffset : ∃ n, Json.member? "byteOffset" v = some (.number (.integer n))
  numWarmups : ∃ n, Json.member? "numWarmups" v = some (.number (.integer n)) ∧ 0 ≤ n
  numIterations : ∃ n, Json.member? "numIterations" v = some (.number (.integer n)) ∧ 0 < n
  samplingFactor : ∃ n, Json.member? "samplingFactor" v = some (.number (.integer n)) ∧ 0 < n
  numCpuPerLink : ∃ n, Json.member? "numCpuPerLink" v = some (.number (.integer n)) ∧ 0 < n
  fillPattern : ∃ pattern, Json.member? "fillPattern" v = some (.object pattern) ∧
    (∃ b, Named.get? "specified" pattern = some (.bool b)) ∧
    (∃ s, Named.get? "hex" pattern = some (.string s)) ∧
    ∃ n, Named.get? "byteLength" pattern = some (.number (.integer n)) ∧ 0 ≤ n

section

variable {v : Option Json}

theorem flaws_truth_eq_nil_iff :
    Shape.truth.flaws (v.map Candidate.ofJson) = [] ↔ ∃ b, v = some (.bool b) := by
  cases v with
  | none => simp [Shape.flaws]
  | some v => cases v <;> simp [Shape.flaws, Candidate.ofJson]

theorem flaws_text_eq_nil_iff :
    Shape.text.flaws (v.map Candidate.ofJson) = [] ↔ ∃ s, v = some (.string s) := by
  cases v with
  | none => simp [Shape.flaws]
  | some v => cases v <;> simp [Shape.flaws, Candidate.ofJson]

theorem flaws_literal_eq_nil_iff {text words : String} :
    (Shape.literal text words).flaws (v.map Candidate.ofJson) = [] ↔ v = some (.string text) := by
  cases v with
  | none => simp [Shape.flaws]
  | some v => cases v <;> simp [Shape.flaws, Candidate.ofJson]

theorem flaws_whole_eq_nil_iff {limit : Option Limit} :
    (Shape.whole limit).flaws (v.map Candidate.ofJson) = [] ↔
      ∃ n, v = some (.number (.integer n)) ∧ ∀ l ∈ limit, l.Holds (.integer n) := by
  cases v with
  | none => simp [Shape.flaws]
  | some v =>
    cases v with
    | number n => cases n <;> simp [Shape.flaws, Candidate.ofJson, fractionFlaws, limitFlaws]
    | _ => simp [Shape.flaws, Candidate.ofJson]

theorem flaws_object_eq_nil_iff {fields : List (String × Shape)} :
    (Shape.object fields).flaws (v.map Candidate.ofJson) = [] ↔
      ∃ members, v = some (.object members) ∧
        fieldFlaws fields (Candidate.ofJsonMembers members) = [] := by
  cases v with
  | none => simp [Shape.flaws]
  | some v => cases v <;> simp [Shape.flaws, Candidate.ofJson, Candidate.members?]

end

theorem holds_notBelowZero (n : Int) : notBelowZero.Holds (.integer n) ↔ 0 ≤ n := by
  simp [notBelowZero, Limit.Holds, Number.value?]

theorem holds_aboveZero (n : Int) : aboveZero.Holds (.integer n) ↔ 0 < n := by
  simp [aboveZero, Limit.Holds, Number.value?]

/-- Only objects are reports. -/
theorem IsReport.object {v : Json} (report : IsReport v) : ∃ members, v = .object members := by
  cases v with
  | object members => exact ⟨members, rfl⟩
  | _ => exact nomatch report.version

/-- Reports are the values without a flaw. -/
theorem flaws_eq_nil_iff_isReport {v : Json} :
    reportShape.flaws (some (Candidate.ofJson v)) = [] ↔ IsReport v := by
  rw [reportShape, ← Option.map_some, flaws_object_eq_nil_iff]
  simp only [Option.some.injEq, fieldFlaws_eq_nil_iff, reportFields, patternFields, flagFields,
    List.forall_mem_cons, List.forall_mem_map, List.not_mem_nil, false_implies, implies_true,
    and_true, get?_ofJsonMembers, flaws_truth_eq_nil_iff, flaws_text_eq_nil_iff,
    flaws_literal_eq_nil_iff, flaws_whole_eq_nil_iff, flaws_object_eq_nil_iff, Option.mem_def,
    forall_eq', reduceCtorEq, holds_notBelowZero, holds_aboveZero]
  constructor
  · rintro ⟨members, rfl, version, flags, offset, warmups, iterations, factor, perLink, pattern⟩
    exact ⟨version, flags, offset, warmups, iterations, factor, perLink, pattern⟩
  · intro report
    obtain ⟨members, rfl⟩ := report.object
    exact ⟨members, rfl, report.version, report.flags, report.byteOffset, report.numWarmups,
      report.numIterations, report.samplingFactor, report.numCpuPerLink, report.fillPattern⟩

/-! ## 4. What comes out -/

/-- Every quantity that was accepted is within its bound. -/
theorem bounded_documentOf {members : List (String × Candidate)}
    (clean : documentIssues members = []) : (documentOf members).Bounded := by
  simp only [documentIssues, List.append_eq_nil_iff, List.flatMap_eq_nil_iff,
    Issue.under_eq_nil_iff] at clean
  obtain ⟨⟨-, quantities⟩, -⟩ := clean
  intro q
  exact (wholeFaults_eq_nil_iff.1 (quantities q (by cases q <;> decide))).2

section

variable {members : List (String × Json)} {name : String}

/-! What a check takes from a candidate is what the value has there. -/

theorem boolOf_given {b : Bool} (given : Named.get? name members = some (.bool b)) :
    boolOf (Named.get? name (Candidate.ofJsonMembers members)) = b := by
  rw [get?_ofJsonMembers, given]
  rfl

theorem stringOf_given {s : String} (given : Named.get? name members = some (.string s)) :
    stringOf (Named.get? name (Candidate.ofJsonMembers members)) = s := by
  rw [get?_ofJsonMembers, given]
  rfl

theorem wholeOf_given {n : Int} (given : Named.get? name members = some (.number (.integer n))) :
    wholeOf (Named.get? name (Candidate.ofJsonMembers members)) = n := by
  rw [get?_ofJsonMembers, given]
  rfl

theorem membersOf_given {inner : List (String × Json)}
    (given : Named.get? name members = some (.object inner)) :
    membersOf (Named.get? name (Candidate.ofJsonMembers members)) =
      Candidate.ofJsonMembers inner := by
  rw [get?_ofJsonMembers, membersOf_ofJson, given, Json.membersOf]

/-- Of a section of switches nothing is left but the switches. -/
theorem pruneFields_truths {names : List String}
    (truths : ∀ name ∈ names, ∃ b, Named.get? name members = some (.bool b)) :
    pruneFields (names.map (·, .truth)) members = names.map fun name =>
      (name, .bool (boolOf (Named.get? name (Candidate.ofJsonMembers members)))) := by
  induction names with
  | nil => rfl
  | cons name rest ih =>
    rw [List.forall_mem_cons] at truths
    obtain ⟨⟨b, given⟩, truths⟩ := truths
    rw [List.map_cons, List.map_cons, boolOf_given given]
    exact pruneFields_cons given rfl (ih truths)

end

/-- A report comes out without the members that are no part of it. -/
theorem toJson_documentOf {members : List (String × Json)} (report : IsReport (.object members)) :
    (documentOf (Candidate.ofJsonMembers members)).toJson =
      reportShape.prune (.object members) := by
  obtain ⟨version, ⟨flags, flagsGiven, truths⟩, ⟨offset, offsetGiven⟩, ⟨warmups, warmupsGiven, -⟩,
    ⟨iterations, iterationsGiven, -⟩, ⟨factor, factorGiven, -⟩, ⟨perLink, perLinkGiven, -⟩,
    pattern, patternGiven, ⟨specified, specifiedGiven⟩, ⟨hex, hexGiven⟩, length, lengthGiven,
    nonnegative⟩ := report
  have made : (documentOf (Candidate.ofJsonMembers members)).toJson =
      .object
        [("version", .string "1.0"),
         ("flags", .object (flagNames.map fun name =>
            (name, .bool (boolOf (Named.get? name (Candidate.ofJsonMembers flags)))))),
         ("byteOffset", .number (.integer offset)),
         ("numWarmups", .number (.integer warmups)),
         ("numIterations", .number (.integer iterations)),
         ("samplingFactor", .number (.integer factor)),
         ("numCpuPerLink", .number (.integer perLink)),
         ("fillPattern", .object
            [("specified", .bool specified), ("hex", .string hex),
             ("byteLength", .number (.integer length))])] := by
    rw [← wholeOf_given offsetGiven, ← wholeOf_given warmupsGiven, ← wholeOf_given iterationsGiven,
      ← wholeOf_given factorGiven, ← wholeOf_given perLinkGiven, ← boolOf_given specifiedGiven,
      ← stringOf_given hexGiven, ← Int.toNat_of_nonneg nonnegative, ← wholeOf_given lengthGiven,
      ← membersOf_given flagsGiven, ← membersOf_given patternGiven]
    rfl
  rw [made]
  refine congrArg JsonOf.object (Eq.symm ?_)
  refine pruneFields_cons version rfl <|
    pruneFields_cons flagsGiven (congrArg JsonOf.object (pruneFields_truths truths)) <|
    pruneFields_cons offsetGiven rfl <| pruneFields_cons warmupsGiven rfl <|
    pruneFields_cons iterationsGiven rfl <| pruneFields_cons factorGiven rfl <|
    pruneFields_cons perLinkGiven rfl <|
    pruneFields_cons patternGiven (congrArg JsonOf.object ?_) rfl
  exact pruneFields_cons specifiedGiven rfl <| pruneFields_cons hexGiven rfl <|
    pruneFields_cons lengthGiven rfl rfl

/-- The flaws of a JSON value decide whether it is a report. It is rejected with all of them, in
order, and accepted when there are none, which is when it is a report. Then it comes out without
the members that are no part of it, and is accepted again as it came out. -/
theorem flaws_decide_document (v : Json) :
    DecidedBy (reportShape.flaws (some (Candidate.ofJson v))) (document v) ∧
    ((∃ d, document v = .ok d) ↔ IsReport v) ∧
    ∀ d, document v = .ok d → d.toJson = reportShape.prune v ∧ document d.toJson = .ok d := by
  have decided : DecidedBy (reportShape.flaws (some (Candidate.ofJson v))) (document v) :=
    decidedBy_of_members fun members _ => told_documentIssues members
  have acceptance : (∃ d, document v = .ok d) ↔ IsReport v :=
    decided.accepted.trans flaws_eq_nil_iff_isReport
  refine ⟨decided, acceptance, fun d accepted => ?_⟩
  have report := acceptance.1 ⟨d, accepted⟩
  obtain ⟨members, rfl⟩ := report.object
  rw [document_object] at accepted
  split at accepted
  · rename_i clean
    obtain rfl := Except.ok.inj accepted
    exact ⟨toJson_documentOf report,
      Document.document_toJson_of_bounded (bounded_documentOf clean)⟩
  · cases accepted

/-- A report with other members at the top and in both sections, in no order. -/
def padded : Json :=
  .object
    [("fillPattern", .object
        [("hex", .string "DEADBEEF"), ("name", .null), ("byteLength", .number (.integer 4)),
         ("specified", .bool true)]),
     ("comment", .array [.string "kept nowhere"]),
     ("numIterations", .number (.integer 10)),
     ("numWarmups", .number (.integer 0)),
     ("byteOffset", .number (.integer (-3))),
     ("flags", .object
        [("outputToCsv", .bool false), ("showAddr", .bool true), ("verbose", .bool true),
         ("combineTiming", .bool false), ("useInteractive", .bool false),
         ("useSingleSync", .bool true), ("useMemset", .bool false), ("useHipCall", .bool true)]),
     ("numCpuPerLink", .number (.integer 4)),
     ("samplingFactor", .number (.integer 1)),
     ("version", .string "1.0")]

def unpadded : Json :=
  .object
    [("version", .string "1.0"),
     ("flags", .object
        [("useHipCall", .bool true), ("useMemset", .bool false), ("useSingleSync", .bool true),
         ("useInteractive", .bool false), ("combineTiming", .bool false),
         ("showAddr", .bool true), ("outputToCsv", .bool false)]),
     ("byteOffset", .number (.integer (-3))),
     ("numWarmups", .number (.integer 0)),
     ("numIterations", .number (.integer 10)),
     ("samplingFactor", .number (.integer 1)),
     ("numCpuPerLink", .number (.integer 4)),
     ("fillPattern", .object
        [("specified", .bool true), ("hex", .string "DEADBEEF"),
         ("byteLength", .number (.integer 4))])]

/-- No report, with flaws in both sections and around them. -/
def misshapen : Json :=
  .object
    [("version", .number (.integer 1)),
     ("flags", .object
        [("useHipCall", .string "true"), ("useMemset", .bool false), ("useSingleSync", .null),
         ("useInteractive", .bool false), ("combineTiming", .bool false),
         ("showAddr", .bool true)]),
     ("byteOffset", .number (.fraction 1 1)),
     ("numWarmups", .number (.fraction (-1) 1)),
     ("numIterations", .number (.integer 0)),
     ("samplingFactor", .number (.infinite false)),
     ("fillPattern", .object [("hex", .null), ("byteLength", .number (.integer (-4)))])]

def misshapenFlaws : List Flaw :=
  [(["version"], "invalid_literal", "Invalid literal value, expected \"1.0\""),
   (["flags", "useHipCall"], "invalid_type", "Expected boolean, received string"),
   (["flags", "useSingleSync"], "invalid_type", "Expected boolean, received null"),
   (["flags", "outputToCsv"], "invalid_type", "Required"),
   (["byteOffset"], "invalid_type", "Expected integer, received float"),
   (["numWarmups"], "invalid_type", "Expected integer, received float"),
   (["numWarmups"], "too_small", "Number must be greater than or equal to 0"),
   (["numIterations"], "too_small", "Number must be greater than 0"),
   (["samplingFactor"], "invalid_type", "Expected integer, received float"),
   (["numCpuPerLink"], "invalid_type", "Required"),
   (["fillPattern", "specified"], "invalid_type", "Required"),
   (["fillPattern", "hex"], "invalid_type", "Expected string, received null"),
   (["fillPattern", "byteLength"], "too_small", "Number must be greater than or equal to 0")]

theorem flaws_decide_document_padded :
    (∃ d, document padded = .ok d ∧ d.toJson = unpadded ∧ document unpadded = .ok d) ∧
    ∃ issues, document misshapen = .error issues ∧ issues.map told = misshapenFlaws := by
  constructor
  · obtain ⟨decided, -, kept⟩ := flaws_decide_document padded
    obtain ⟨d, accepted⟩ := decided.accepted.2 (by decide +kernel)
    obtain ⟨pruned, again⟩ := kept d accepted
    have left : reportShape.prune padded = unpadded := rfl
    rw [pruned, left] at again
    exact ⟨d, accepted, pruned.trans left, again⟩
  · obtain ⟨decided, -, -⟩ := flaws_decide_document misshapen
    obtain ⟨issues, rejected, all⟩ := decided.exists_error (by decide +kernel)
    have flaws : reportShape.flaws (some (Candidate.ofJson misshapen)) = misshapenFlaws := by
      decide +kernel
    exact ⟨issues, rejected, all.trans flaws⟩

end BenchSettings.Check
