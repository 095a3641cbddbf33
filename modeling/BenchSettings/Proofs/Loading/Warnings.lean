/-
BenchSettings.Proofs.Loading.Warnings — no value is changed silently.

A text is read by one recogniser, which takes what digits it finds at the
front, and judged by another, which wants nothing but a sign and digits and
compares doubles. Between them nothing may slip through: whenever the number
that is used is not exactly what the trimmed text denotes, there is a warning
with the variable, the text as it stands and the number (`Contributes`).
`warnings_accounted` says this of all the warnings of a load at once.
-/
import BenchSettings.Proofs.Loading.Order
import Mathlib.Data.List.Basic

namespace BenchSettings

namespace Environment

/-- The warnings that a setting may contribute: none while its variable is unset, none if the
trimmed text denotes the number that is used, and else one with all that is known. -/
inductive Contributes (env : Environment) (s : Setting) : List Warning → Prop where
  | unset : env.get? s.name = none → Contributes env s []
  | denoted {text : String} :
      env.get? s.name = some text → Text.Plain (Text.trim text) (env.used s) →
      Contributes env s []
  | warned {text : String} (complaint : Complaint) :
      env.get? s.name = some text → ¬Text.Plain (Text.trim text) (env.used s) →
      Contributes env s [⟨s.name, text, env.used s, complaint⟩]

/-- A reading warns of exactly what it has to. -/
theorem contributes_reading (env : Environment) (s : Setting) :
    env.Contributes s (env.reading s).warning.toList := by
  cases set : env.get? s.name with
  | none =>
    rw [reading, read_of_unset set]
    exact .unset set
  | some text =>
    have value : env.used s = lenient text := by simp only [used, set]
    obtain ⟨lo, hi⟩ := lenient_mem text
    rw [reading, read_of_set set]
    cases found : complaint? text (lenient text) with
    | none =>
      have plain : Text.Plain (Text.trim text) (env.used s) := by
        rw [value]
        exact (complaint?_eq_none_iff lo hi).1 found
      exact .denoted set plain
    | some complaint =>
      have notPlain : ¬Text.Plain (Text.trim text) (env.used s) := by
        rw [value, ← complaint?_eq_none_iff lo hi, found]
        exact Option.some_ne_none _
      rw [← value]
      exact .warned complaint set notPlain

/-- Readings see their own variable and nothing else. -/
theorem reading_congr {env other : Environment} {s : Setting}
    (same : other.get? s.name = env.get? s.name) : other.reading s = env.reading s := by
  simp only [reading, read, same]

theorem warnings_congr {env other : Environment}
    (same : ∀ s : Setting, other.get? s.name = env.get? s.name) :
    other.warnings = env.warnings := by
  simp only [warnings, fun s => reading_congr (same s)]

/-- The warnings of a load are what its settings contribute, in reading order; the numbers they name
are the ones that the configuration is made of, and no other variable has a part in them. -/
theorem warnings_accounted {env : Environment} {loaded : Loaded} (h : env.load = .ok loaded) :
    (∃ part : Setting → List Warning,
      loaded.warnings = Setting.all.flatMap part ∧ ∀ s, env.Contributes s (part s)) ∧
    (∀ w ∈ loaded.warnings, ∃ words,
      w.message = w.name ++ "=\"" ++ w.text ++ "\" " ++ words ++ "; using " ++
        Text.decimal w.used) ∧
    (∀ s : Switch, loaded.configuration.switch s = true ↔ env.used (.switch s) ≠ 0) ∧
    (∀ q : Quantity, loaded.configuration.quantity q = env.used (.quantity q)) ∧
    ∀ (other : Environment) (otherLoaded : Loaded), other.load = .ok otherLoaded →
      (∀ s : Setting, other.get? s.name = env.get? s.name) →
      otherLoaded.warnings = loaded.warnings := by
  obtain ⟨pattern, -, -, rfl⟩ := (env.load_eq_ok_iff loaded).1 h
  refine ⟨⟨fun s => (env.reading s).warning.toList, ?_, env.contributes_reading⟩, ?_, ?_,
    env.quantityValue_eq, ?_⟩
  · exact List.filterMap_eq_flatMap_toList ..
  · intro w _
    exact ⟨w.complaint.wording, rfl⟩
  · intro s
    exact (congrArg (· = true) (env.switchValue_eq s)).to_iff.trans bne_iff_ne
  · intro other otherLoaded otherLoads same
    obtain ⟨_, -, -, rfl⟩ := (other.load_eq_ok_iff otherLoaded).1 otherLoads
    exact warnings_congr same

/-- An environment with a number that has a tail, a zero with a sign and blanks, a number beyond 32
bits, and variables that are no whole numbers. -/
def mixed : Environment :=
  .ofList
    [("USE_MEMSET", some " 12x"), ("SHOW_ADDR", some " -0 "), ("BYTE_OFFSET", none),
     ("NUM_ITERATIONS", some "99999999999999999999"), ("FILL_PATTERN", some "AB"),
     ("OTHER", some "one")]

theorem warnings_mixed :
    ∃ loaded, mixed.load = .ok loaded ∧
      loaded.warnings.map Warning.message =
        ["USE_MEMSET=\" 12x\" is not an integer; using 12",
         "NUM_ITERATIONS=\"99999999999999999999\" is out of range; using 2147483647"] ∧
      ∃ part : Setting → List Warning,
        loaded.warnings = Setting.all.flatMap part ∧ ∀ s, mixed.Contributes s (part s) := by
  have loads : mixed.load =
      .ok ⟨mixed.configurationOf [0xAB, 0xAB, 0xAB, 0xAB], mixed.warnings⟩ :=
    (mixed.load_eq_ok_iff _).2
      ⟨_, rfl, fun q => by cases q <;> decide +kernel, rfl⟩
  exact ⟨_, loads, by decide +kernel, (warnings_accounted loads).1⟩

end Environment

end BenchSettings
