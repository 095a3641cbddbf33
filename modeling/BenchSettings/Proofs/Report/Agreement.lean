/-
BenchSettings.Proofs.Report.Agreement — a report, its text and the two checks
agree.

A configuration is checked when it is made and a report is checked when it is
read, by rules that are written down twice and in different words. They do not
contradict each other: the report on a configuration that was accepted is
accepted, as it is (`document_toJson`). It is still the same report after it
was written out and read back (`parse?_text`).

So the text tells the report (`text_injective`), and of the configuration
everything but the spelling of its pattern (`ofConfiguration_eq_iff`).
`agreement_of_accepted` puts this together.

Numbers are at most 2 ^ 53 - 1 in all this, up to which a reader meets every
whole number exactly.
-/
import BenchSettings.Proofs.Check.Accepted
import BenchSettings.Proofs.Check.Unordered

namespace BenchSettings

/-! ## 1. Numbers that readers meet exactly -/

/-- The numbers in a configuration are at most 2 ^ 53 - 1, and so is the length of its pattern, as
that of every list of bytes there can be. -/
structure Configuration.Exact (c : Configuration) : Prop where
  quantity : ∀ q, (c.quantity q).natAbs ≤ 9007199254740991
  length : c.pattern.length ≤ 9007199254740991

theorem Configuration.Exact.written {c : Configuration} (exact : c.Exact) : c.Written :=
  fun q => Nat.lt_of_le_of_lt (exact.quantity q) (by decide)

namespace Report.Document

/-- The numbers in a report are at most 2 ^ 53 - 1. -/
structure Exact (d : Document) : Prop where
  quantity : ∀ q, (d.quantity q).natAbs ≤ 9007199254740991
  length : d.byteLength ≤ 9007199254740991

/-- Every reported quantity keeps its rule. -/
def Obeys (d : Document) : Prop := ∀ q : Quantity, q.Obeys (d.quantity q)

variable {d : Document}

/-! ## 2. A report is accepted as it is -/

/-- Both checks have the same lower bounds. -/
theorem reportedFaults_of_obeys {q : Quantity} {n : Int} (h : q.Obeys n) :
    Check.reportedFaults q (.integer n) = [] := by
  cases q with
  | byteOffset => rfl
  | warmups =>
    have nonnegative : 0 ≤ n := h
    exact if_pos (decide_eq_true nonnegative)
  | iterations | samplingFactor | cpuPerLink =>
    have positive : 0 < n := h
    exact if_pos (decide_eq_true positive)

/-- The members of a report, as they are checked. -/
def members (d : Document) : List (String × Check.Candidate) :=
  Check.Candidate.ofJsonMembers (Json.membersOf (some d.toJson))

theorem get?_members_switch (d : Document) (s : Switch) :
    Named.get? s.field (Check.membersOf (Named.get? "flags" d.members)) =
      some (.bool (d.switch s)) := by
  cases s <;> rfl

theorem get?_members_quantity (d : Document) (q : Quantity) :
    Named.get? q.field d.members = some (.number (.integer (d.quantity q))) := by
  cases q <;> rfl

theorem switchIssues_members (d : Document) :
    Check.sectionIssues "flags" d.members Check.switchIssues = [] := by
  have isObject : Check.objectFaults (Named.get? "flags" d.members) = [] := rfl
  have inside : Check.switchIssues (Check.membersOf (Named.get? "flags" d.members)) = [] := by
    simp only [Check.switchIssues, get?_members_switch, List.flatMap_eq_nil_iff]
    exact fun _ _ => rfl
  rw [Check.sectionIssues, isObject, inside]
  rfl

theorem patternSectionIssues_members (d : Document) :
    Check.sectionIssues "fillPattern" d.members Check.patternSectionIssues = [] := by
  have isObject : Check.objectFaults (Named.get? "fillPattern" d.members) = [] := rfl
  have length : Check.wholeFaults Check.nonnegativeFaults
      (some (.number (.integer d.byteLength))) = [] := by
    simp [Check.wholeFaults, Number.isInteger, Check.nonnegativeFaults, Number.atLeast]
  have inside :
      Check.patternSectionIssues (Check.membersOf (Named.get? "fillPattern" d.members)) = [] :=
    congrArg (Check.Issue.under ["byteLength"]) length
  rw [Check.sectionIssues, isObject, inside]
  rfl

/-- Every reported quantity keeps the bound that reports have for it. -/
def Bounded (d : Document) : Prop := ∀ q, Check.reportedFaults q (.integer (d.quantity q)) = []

theorem documentIssues_members (bounded : d.Bounded) : Check.documentIssues d.members = [] := by
  have text : Named.get? "version" d.members = some (.string documentVersion) := rfl
  have version : Check.versionFaults (Named.get? "version" d.members) = [] := by
    rw [text, Check.versionFaults, if_pos rfl]
  have quantities (q : Quantity) :
      Check.wholeFaults (Check.reportedFaults q) (Named.get? q.field d.members) = [] := by
    rw [get?_members_quantity]
    exact bounded q
  simp only [Check.documentIssues, version, switchIssues_members, quantities,
    patternSectionIssues_members, Check.Issue.under_eq_nil_iff, List.append_eq_nil_iff,
    List.flatMap_eq_nil_iff, implies_true, and_self]

theorem documentOf_members (d : Document) : Check.documentOf d.members = d := by
  have switches := d.get?_members_switch
  have quantities := d.get?_members_quantity
  simp only [Check.documentOf, switches, quantities]
  rfl

/-- A report within its bounds is accepted and comes out of its check as it went in. -/
theorem document_toJson_of_bounded (bounded : d.Bounded) : Check.document d.toJson = .ok d := by
  have object : d.toJson = .object (Json.membersOf (some d.toJson)) := rfl
  have clean := documentIssues_members bounded
  have made := d.documentOf_members
  rw [members] at clean made
  rw [object, Check.document_object, clean, made]

/-- So is one that keeps the rules of configurations. -/
theorem document_toJson (obeys : d.Obeys) : Check.document d.toJson = .ok d :=
  document_toJson_of_bounded fun q => reportedFaults_of_obeys (obeys q)

/-! ## 3. A report and its text -/

/-- Members of concrete names are plain if their values are. -/
theorem plain_object {members : List (String × Json)} (names : List String)
    (named : Named.names members = names) (distinct : names.Nodup) (kept : Named.reserved ∉ names)
    (all : ∀ m ∈ members, Json.Plain m.2) : Json.Plain (.object members) := by
  subst named
  exact .object distinct kept all

theorem plain_toJson (exact : d.Exact) : Json.Plain d.toJson := by
  have number {n : Int} (h : n.natAbs ≤ 9007199254740991) : Json.Plain (.number (.integer n)) :=
    .number (Nat.lt_of_le_of_lt h (by decide))
  refine plain_object (["version", "flags"] ++ Quantity.all.map Quantity.field ++ ["fillPattern"])
    rfl (by decide) (by decide) ?_
  simp only [List.forall_mem_append, List.forall_mem_cons, List.forall_mem_map]
  refine ⟨⟨⟨.string _, ?flags, ?nothing⟩, ?quantities⟩, ?pattern, ?nothing'⟩
  case flags =>
    refine plain_object (Switch.all.map Switch.field) rfl (by decide) (by decide) ?_
    exact List.forall_mem_map.2 fun s _ => .bool (d.switch s)
  case quantities => exact fun q _ => number (exact.quantity q)
  case pattern =>
    refine plain_object ["specified", "hex", "byteLength"] rfl (by decide) (by decide) ?_
    simp only [List.forall_mem_cons]
    exact ⟨.bool _, .string _, number exact.length, fun _ none => nomatch none⟩
  all_goals exact fun _ none => nomatch none

/-- The text of a report, read back, is the report up to the order of members. -/
theorem parse?_text (exact : d.Exact) :
    ∃ v, Json.parse? d.text = some v ∧ Json.Same d.toJson v :=
  ⟨_, Json.parse?_serialize (plain_toJson exact), Json.same_canonical (plain_toJson exact)⟩

/-- Different reports have different texts. -/
theorem text_injective {e : Document} (exact : d.Exact) (exact' : e.Exact) (obeys : d.Obeys)
    (obeys' : e.Obeys) (same : d.text = e.text) : d = e := by
  obtain ⟨v, read, sameValue⟩ := parse?_text exact
  obtain ⟨w, read', sameValue'⟩ := parse?_text exact'
  rw [same, read'] at read
  obtain rfl := Option.some.inj read
  have checked := document_toJson obeys
  rw [Check.document_congr sameValue, ← Check.document_congr sameValue',
    document_toJson obeys'] at checked
  exact (Except.ok.inj checked).symm

/-! ## 4. What a report tells of the configuration -/

theorem exact_ofConfiguration {c : Configuration} (exact : c.Exact) : (ofConfiguration c).Exact :=
  ⟨exact.quantity, exact.length⟩

/-- Everything is reported but how the pattern is spelled. -/
theorem ofConfiguration_eq_iff {c c' : Configuration} :
    ofConfiguration c = ofConfiguration c' ↔
      (∀ s, c.switch s = c'.switch s) ∧ (∀ q, c.quantity q = c'.quantity q) ∧
        c.pattern = c'.pattern ∧ c.patternText.isSome = c'.patternText.isSome := by
  simp only [ofConfiguration, mk.injEq]
  constructor
  · rintro ⟨switch, quantity, given, hex, -⟩
    exact ⟨congrFun switch, congrFun quantity, FillPattern.hex_injective hex, given⟩
  · rintro ⟨switch, quantity, pattern, given⟩
    rw [pattern]
    exact ⟨funext switch, funext quantity, given, rfl, rfl⟩

end Report.Document

/-! ## 5. Accepted configurations -/

open Report

/-- The report on an accepted configuration is accepted and comes out as it went in. Its text, read
back, is the same value, and is accepted as the same report. The bytes of its pattern are upper-case
hex digits, two for each byte, in whole elements. And the reports on two accepted configurations
have the same text exactly when the configurations agree in all switches, in all quantities, in the
bytes of the pattern and in whether a pattern was given. -/
theorem Report.agreement_of_accepted {candidate : Check.Candidate} {c : Configuration}
    (accepted : Check.configuration candidate = .ok c) (exact : c.Exact) :
    let d := Document.ofConfiguration c
    Check.document d.toJson = .ok d ∧
    (∃ v, Json.parse? d.text = some v ∧ Json.Same d.toJson v ∧ Check.document v = .ok d) ∧
    (d.hex.toList.length = 2 * d.byteLength ∧
      (∀ digit ∈ d.hex.toList, digit ∈ Text.Hex.upperDigits) ∧ 4 ∣ d.byteLength) ∧
    ∀ (other : Check.Candidate) (c' : Configuration),
      Check.configuration other = .ok c' → c'.Exact →
      (d.text = (Document.ofConfiguration c').text ↔
        (∀ s, c.switch s = c'.switch s) ∧ (∀ q, c.quantity q = c'.quantity q) ∧
          c.pattern = c'.pattern ∧ c.patternText.isSome = c'.patternText.isSome) := by
  intro d
  have admissible := Check.admissible_of_configuration accepted exact.written
  have reported : d.Obeys := admissible.obeys
  have exactReport : d.Exact := Document.exact_ofConfiguration exact
  have unchanged := Document.document_toJson reported
  refine ⟨unchanged, ?text, ⟨FillPattern.length_hex c.pattern,
    fun _ => FillPattern.mem_upperDigits_of_mem_hex, admissible.whole⟩, ?faithful⟩
  case text =>
    obtain ⟨v, read, same⟩ := Document.parse?_text exactReport
    refine ⟨v, read, same, ?_⟩
    rw [← Check.document_congr same]
    exact unchanged
  case faithful =>
    intro other c' accepted' exact'
    have admissible' := Check.admissible_of_configuration accepted' exact'.written
    rw [← Document.ofConfiguration_eq_iff]
    constructor
    · exact Document.text_injective exactReport (Document.exact_ofConfiguration exact') reported
        admissible'.obeys
    · exact congrArg Document.text

/-- A configuration with everything switched on and with the least and the greatest numbers that
are exact. -/
def brimful : Configuration where
  switch _ := true
  quantity
    | .byteOffset => -9007199254740988
    | .warmups => 0
    | .iterations | .samplingFactor | .cpuPerLink => 9007199254740991
  pattern := [0xDE, 0xAD, 0xBE, 0xEF]
  patternText := some "deadbeef"

theorem Report.agreement_of_accepted_brimful :
    brimful.Exact ∧
    Check.configuration (.object (Check.configurationMembers brimful)) = .ok brimful ∧
    (∃ v, Json.parse? (Document.ofConfiguration brimful).text = some v ∧
      Check.document v = .ok (Document.ofConfiguration brimful)) ∧
    (Document.ofConfiguration brimful).text =
      (Document.ofConfiguration { brimful with patternText := some "DEADBEEF" }).text ∧
    (Document.ofConfiguration brimful).text ≠
      (Document.ofConfiguration { brimful with patternText := none }).text := by
  have exact : brimful.Exact := ⟨fun q => by cases q <;> decide, by decide⟩
  have admissible : brimful.Admissible :=
    ⟨fun q => (q.holds_iff _).1 (by cases q <;> decide), by decide⟩
  -- How the pattern is spelled is none of the conditions.
  have exact' (text : Option String) : Configuration.Exact { brimful with patternText := text } :=
    ⟨exact.quantity, exact.length⟩
  have admissible' (text : Option String) :
      Configuration.Admissible { brimful with patternText := text } :=
    ⟨admissible.obeys, admissible.whole⟩
  have accepted (text : Option String) :=
    Check.configuration_configurationMembers (admissible' text) (exact' text).written
  obtain ⟨-, ⟨v, read, -, checked⟩, -, faithful⟩ :=
    Report.agreement_of_accepted (accepted (some "deadbeef")) (exact' _)
  refine ⟨exact, accepted _, ⟨v, read, checked⟩, ?_, ?_⟩
  · refine (faithful _ _ (accepted (some "DEADBEEF")) (exact' _)).2 ?_
    exact ⟨fun _ => rfl, fun _ => rfl, rfl, rfl⟩
  · intro same
    obtain ⟨-, -, -, given⟩ := (faithful _ _ (accepted none) (exact' _)).1 same
    cases given

end BenchSettings
