/-
BenchSettings.Proofs.Check.Accepted — the configurations that a check accepts.

A check looks at candidates of any kind, with members missing, in excess or in
any order. What it gives in the end can be said without candidates: in a
configuration that comes out of a check each quantity keeps its rule and the
pattern is whole elements (`admissible_of_configuration`), and such a
configuration, handed to the check again, comes out as it went in
(`configuration_configurationMembers`).

Both hold of numbers that are written with all their digits. A greater number
is judged by the digits of its text (`Number.isQuotientMultipleOf`).
-/
import BenchSettings.Proofs.Loading.Order

namespace BenchSettings

namespace Configuration

/-- Every quantity keeps its rule and the pattern is whole elements. -/
structure Admissible (c : Configuration) : Prop where
  obeys : ∀ q : Quantity, q.Obeys (c.quantity q)
  whole : 4 ∣ c.pattern.length

/-- The quantities are written with all their digits, without an exponent. -/
def Written (c : Configuration) : Prop := ∀ q, (c.quantity q).natAbs < Number.exponentFrom

end Configuration

namespace Check

/-! ## 1. Candidates without issues -/

theorem patternFaults_eq_nil_iff {v : Option Candidate} :
    patternFaults v = [] ↔
      v = some (.bytes (bytesOf v)) ∧ (bytesOf v).length % elementSize = 0 := by
  unfold patternFaults bytesOf
  split
  · split <;> simp_all
  · simp_all

/-- Members have no issue when none of the fields has a fault. -/
theorem configurationIssues_eq_nil_iff {members : List (String × Candidate)} :
    configurationIssues members = [] ↔
      (∀ s : Switch, boolFaults (Named.get? s.field members) = []) ∧
      (∀ q : Quantity, wholeFaults (ruleFaults q) (Named.get? q.field members) = []) ∧
      patternFaults (Named.get? patternField members) = [] ∧
      patternTextFaults (Named.get? patternTextField members) = [] := by
  simp only [configurationIssues, List.append_eq_nil_iff, List.flatMap_eq_nil_iff,
    Issue.under_eq_nil_iff, Switch.mem_all, Quantity.mem_all, forall_const, and_assoc]

/-! ## 2. What comes out of a check -/

/-- What comes out of a check keeps every rule. -/
theorem admissible_of_configuration {candidate : Candidate} {c : Configuration}
    (accepted : configuration candidate = .ok c) (written : c.Written) : c.Admissible := by
  obtain ⟨members, -, clean, rfl⟩ := configuration_eq_ok_iff.1 accepted
  obtain ⟨-, numbers, bytes, -⟩ := configurationIssues_eq_nil_iff.1 clean
  constructor
  case obeys =>
    intro q
    have silent : ruleFaults q (.integer ((configurationOf members).quantity q)) = [] :=
      (wholeFaults_eq_nil_iff.1 (numbers q)).2
    rw [ruleFaults_integer q (written q)] at silent
    refine (q.holds_iff _).1 ?_
    by_contra broken
    simp [broken] at silent
  case whole => exact Nat.dvd_of_mod_eq_zero (patternFaults_eq_nil_iff.1 bytes).2

/-- A configuration that keeps every rule comes out of a check as it went in. -/
theorem configuration_configurationMembers {c : Configuration} (admissible : c.Admissible)
    (written : c.Written) : configuration (.object (configurationMembers c)) = .ok c := by
  have clean : configurationIssues (configurationMembers c) = [] := by
    rw [configurationIssues_configurationMembers written (Nat.mod_eq_zero_of_dvd admissible.whole),
      List.map_eq_nil_iff, List.filter_eq_nil_iff]
    intro q _
    simp [(q.holds_iff _).2 (admissible.obeys q)]
  rw [configuration_object, clean, configurationOf_configurationMembers]

end Check

end BenchSettings
