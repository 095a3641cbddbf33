/-
BenchSettings.Proofs.Loading.Repair — an environment is repaired one variable
at a time.

An environment that does not load is repaired by what its error says: the
variable that the error names is unset, and loading is tried again (`Repairs`).
`repair_ends` says that this comes to an end, after six repairs at most,
whatever the environment is.

Six variables can be at fault (`Checked`), and each is so by its own text alone
(`faulty_congr`) and only while it is set (`exists_text_of_faulty`): the defaults
keep their rules, and no pattern at all decodes. Loading reports the first in a
fixed order (`faulty_of_load`). So a repair settles the variable it unsets, it
leaves all before that one settled, and what is reported next stands further on
(`settled_repair`). That is the invariant of a run, and the order of the names
along it, their number and the end all follow from it.
-/
import BenchSettings.Proofs.Loading.Warnings

namespace BenchSettings

/-! ## 1. Variables that can be at fault -/

/-- A variable whose text can keep an environment from loading. -/
inductive Checked where
  | pattern
  | quantity (q : Quantity)
  deriving DecidableEq, Repr

namespace Checked

/-- In the order in which loading reports them. -/
def all : List Checked := .pattern :: Quantity.all.map .quantity

def name : Checked → String
  | .pattern => fillPatternVariable
  | .quantity q => q.name

theorem mem_all (c : Checked) : c ∈ all := by
  cases c with
  | pattern => exact List.mem_cons_self
  | quantity q => exact List.mem_cons_of_mem _ (List.mem_map_of_mem (Quantity.mem_all q))

theorem name_injective {c d : Checked} (h : c.name = d.name) : c = d := by
  have pairs : ∀ c ∈ all, ∀ d ∈ all, c.name = d.name → c = d := by decide
  exact pairs c (mem_all c) d (mem_all d) h

/-- No switch is among them. -/
theorem name_ne_switch (c : Checked) (s : Switch) : c.name ≠ s.name := by
  have pairs : ∀ c ∈ all, ∀ s ∈ Switch.all, c.name ≠ s.name := by decide
  exact pairs c (mem_all c) s (Switch.mem_all s)

end Checked

/-- What an error is about. -/
def LoadError.checked : LoadError → Checked
  | .pattern _ => .pattern
  | .range b => .quantity b.quantity

theorem LoadError.name_checked (e : LoadError) : e.checked.name = e.name := by cases e <;> rfl

namespace Environment

/-- The text of a variable is none that loading accepts. -/
def Faulty (env : Environment) : Checked → Prop
  | .pattern => ¬env.PatternDecodes
  | .quantity q => ¬q.Obeys (env.used (.quantity q))

/-- Nothing is at fault by default. -/
theorem exists_text_of_faulty {env : Environment} {c : Checked} (faulty : env.Faulty c) :
    ∃ text, env.get? c.name = some text := by
  cases set : env.get? c.name with
  | some text => exact ⟨text, rfl⟩
  | none =>
    cases c with
    | pattern =>
      refine absurd (fun text there => ?_) faulty
      exact nomatch there.symm.trans set
    | quantity q =>
      have default : env.used (.quantity q) = q.default := by
        unfold used
        rw [show env.get? (Setting.quantity q).name = none from set]
        rfl
      exact absurd ((q.holds_iff _).1 q.holds_default) (default ▸ faulty)

/-- A variable is at fault by its own text. -/
theorem faulty_congr {env other : Environment} {c : Checked}
    (same : other.get? c.name = env.get? c.name) : other.Faulty c ↔ env.Faulty c := by
  cases c with
  | pattern =>
    have text : other.get? fillPatternVariable = env.get? fillPatternVariable := same
    simp only [Faulty, PatternDecodes, text]
  | quantity q =>
    have text : other.get? (Setting.quantity q).name = env.get? (Setting.quantity q).name := same
    simp only [Faulty, used, text]

/-- An error is about the first variable that is at fault. -/
theorem faulty_of_load {env : Environment} {e : LoadError} (fails : env.load = .error e) :
    env.Faulty e.checked ∧ ∃ before after, Checked.all = before ++ e.checked :: after ∧
      ∀ c ∈ before, ¬env.Faulty c := by
  cases decoded : FillPattern.decode env.patternText with
  | error p =>
    rw [load_of_pattern_error decoded] at fails
    cases fails
    have rejected : env.Faulty .pattern := by
      intro good
      obtain ⟨bytes, accepted⟩ := env.patternDecodes_iff.1 good
      exact nomatch decoded.symm.trans accepted
    exact ⟨rejected, [], _, rfl, fun c mem => nomatch mem⟩
  | ok pattern =>
    rcases env.obeys_or_firstBreach with obeys | ⟨q, breach⟩
    · rw [load_of_obeys decoded obeys] at fails
      cases fails
    · rw [load_of_firstBreach decoded breach] at fails
      cases fails
      obtain ⟨broken, before, after, order, obey⟩ := breach
      refine ⟨broken, .pattern :: before.map .quantity, after.map .quantity, ?_, ?_⟩
      · rw [Checked.all, order, List.map_append, List.map_cons, List.cons_append]
        rfl
      · intro c mem
        rcases List.mem_cons.1 mem with rfl | mem
        · exact not_not_intro (env.patternDecodes_iff.2 ⟨pattern, decoded⟩)
        · obtain ⟨p, earlier, rfl⟩ := List.mem_map.1 mem
          exact not_not_intro (obey p earlier)

/-! ## 2. Repairs -/

/-- A run of repairs, with the errors it has met: each time the variable that the error names is
unset. -/
inductive Repairs : Environment → List LoadError → Environment → Prop
  | start (env : Environment) : Repairs env [] env
  | repair {env last : Environment} {e : LoadError} {errors : List LoadError}
      (fails : env.load = .error e) (rest : Repairs (env.set e.name none) errors last) :
      Repairs env (e :: errors) last

/-- None of some variables is at fault. -/
def Settled (env : Environment) (done : List Checked) : Prop := ∀ c ∈ done, ¬env.Faulty c

/-- A repair goes on behind what is settled, and settles all up to the variable that it unsets. -/
theorem settled_repair {env : Environment} {e : LoadError} (fails : env.load = .error e)
    {done rest : List Checked} (order : Checked.all = done ++ rest) (settled : env.Settled done) :
    ∃ before after, rest = before ++ e.checked :: after ∧
      (env.set e.name none).Settled (done ++ before ++ [e.checked]) := by
  obtain ⟨faulty, first, after, order', sound⟩ := faulty_of_load fails
  obtain ⟨before, rfl, rfl⟩ : ∃ before, first = done ++ before ∧
      rest = before ++ e.checked :: after := by
    rcases List.append_eq_append_iff.1 (order.symm.trans order') with
      ⟨before, front, back⟩ | ⟨more, front, back⟩
    · exact ⟨before, front, back⟩
    · cases more with
      | nil => exact ⟨[], by simpa using front.symm, by simpa using back.symm⟩
      | cons c more =>
        -- The variable that is reported would be settled already.
        obtain ⟨rfl, -⟩ := List.cons.inj back
        exact absurd faulty (settled _ (by simp [front]))
  refine ⟨before, after, rfl, fun c mem => ?_⟩
  rcases List.mem_append.1 mem with earlier | last
  · have fine : ¬env.Faulty c := sound c earlier
    have apart : c.name ≠ e.name := by
      rw [← e.name_checked]
      intro same
      exact fine (Checked.name_injective same ▸ faulty)
    have same : (env.set e.name none).get? c.name = env.get? c.name := by
      rw [get?_set, if_neg apart]
    rwa [faulty_congr same]
  · obtain rfl := List.mem_singleton.1 last
    intro still
    obtain ⟨text, set⟩ := exists_text_of_faulty still
    rw [e.name_checked, get?_set, if_pos rfl] at set
    cases set

namespace Repairs

variable {env last : Environment} {errors : List LoadError}

/-- The variables of a run come in the order in which loading reports them. -/
theorem sublist (run : Repairs env errors last) {done rest : List Checked}
    (order : Checked.all = done ++ rest) (settled : env.Settled done) :
    (errors.map LoadError.checked).Sublist rest := by
  induction run generalizing done rest with
  | start => exact List.nil_sublist _
  | @repair env last e errors fails _ ih =>
    obtain ⟨before, after, rfl, further⟩ := settled_repair fails order settled
    have order' : Checked.all = (done ++ before ++ [e.checked]) ++ after := by
      simpa using order
    exact ((ih order' further).cons_cons e.checked).trans (List.sublist_append_right before _)

theorem names_sublist (run : Repairs env errors last) :
    (errors.map LoadError.name).Sublist (Checked.all.map Checked.name) := by
  have ordered := (run.sublist (List.nil_append Checked.all).symm
    (fun _ mem => nomatch mem)).map Checked.name
  rwa [List.map_map, show Checked.name ∘ LoadError.checked = LoadError.name from
    funext LoadError.name_checked] at ordered

/-- A run unsets the variables it has met and no other. -/
theorem get?_eq (run : Repairs env errors last) (name : String) :
    last.get? name = if name ∈ errors.map LoadError.name then none else env.get? name := by
  induction run with
  | start env => simp
  | @repair env last e errors _ _ ih =>
    rw [ih, get?_set]
    by_cases met : name ∈ errors.map LoadError.name
    · simp [met]
    · by_cases now : name = e.name <;> simp [met, now]

/-- Runs that meet no variable leave its text. -/
theorem get?_of_not_mem (run : Repairs env errors last) {name : String}
    (other : name ∉ errors.map LoadError.name) : last.get? name = env.get? name := by
  rw [run.get?_eq, if_neg other]

/-- Every run is on the way to the one that ends where loading succeeds. -/
theorem isPrefix {ended : Environment} {all : List LoadError} {loaded : Loaded}
    (run : Repairs env errors last) (whole : Repairs env all ended)
    (loads : ended.load = .ok loaded) : errors <+: all := by
  induction run generalizing all with
  | start => exact List.nil_prefix
  | @repair env last e errors fails _ ih =>
    cases whole with
    | start => exact nomatch fails.symm.trans loads
    | repair fails' rest' =>
      obtain rfl := Except.error.inj (fails.symm.trans fails')
      exact (List.prefix_cons_inj e).2 (ih rest')

end Repairs

/-- There is always a run that ends where loading succeeds: each repair leaves fewer variables that
could still be at fault. -/
theorem exists_repairs (env : Environment) :
    ∃ errors last loaded, Repairs env errors last ∧ last.load = .ok loaded := by
  have general : ∀ (rest done : List Checked) (env : Environment), Checked.all = done ++ rest →
      env.Settled done → ∃ errors last loaded, Repairs env errors last ∧ last.load = .ok loaded := by
    intro rest
    induction length : rest.length using Nat.strongRecOn generalizing rest with
    | ind n ih =>
      intro done env order settled
      cases loads : env.load with
      | ok loaded => exact ⟨[], env, loaded, .start env, loads⟩
      | error e =>
        obtain ⟨before, after, rfl, further⟩ := settled_repair loads order settled
        have shorter : after.length < n := by
          simp only [List.length_append, List.length_cons] at length
          omega
        obtain ⟨errors, last, loaded, run, ends⟩ :=
          ih _ shorter after rfl (done ++ before ++ [e.checked]) _ (by simpa using order) further
        exact ⟨e :: errors, last, loaded, .repair loads run, ends⟩
  exact general Checked.all [] env rfl fun _ mem => nomatch mem

/-! ## 3. The end of a run -/

/-- Unsetting the variable that the error names, again and again, comes to an environment that
loads, after six repairs at most. Every error on the way is about a variable that is set, they come
in the one order, and what loads in the end has of every other variable what the first environment
says. -/
theorem repair_ends (env : Environment) :
    (∃ errors last loaded, Repairs env errors last ∧ last.load = .ok loaded ∧
      ∀ others current, Repairs env others current → others <+: errors) ∧
    ∀ errors current, Repairs env errors current →
      errors.length ≤ 6 ∧
      (errors.map LoadError.name).Sublist
        ["FILL_PATTERN", "BYTE_OFFSET", "NUM_WARMUPS", "NUM_ITERATIONS", "SAMPLING_FACTOR",
          "NUM_CPU_PER_LINK"] ∧
      (errors.map LoadError.name).Nodup ∧
      (∀ name, current.get? name =
        if name ∈ errors.map LoadError.name then none else env.get? name) ∧
      (∀ e, current.load = .error e → ∃ text, current.get? e.name = some text) ∧
      ∀ loaded, current.load = .ok loaded →
        (∀ s : Switch, loaded.configuration.switch s = env.switchValue s) ∧
        (∀ q : Quantity, q.name ∉ errors.map LoadError.name →
          loaded.configuration.quantity q = env.quantityValue q) ∧
        (fillPatternVariable ∉ errors.map LoadError.name →
          loaded.configuration.patternText = env.patternText ∧
          FillPattern.decode env.patternText = .ok loaded.configuration.pattern) := by
  constructor
  · obtain ⟨errors, last, loaded, run, loads⟩ := env.exists_repairs
    exact ⟨errors, last, loaded, run, loads, fun _ _ other => other.isPrefix run loads⟩
  · intro errors current run
    have ordered := run.names_sublist
    refine ⟨?six, ordered, ordered.nodup (by decide), run.get?_eq, ?isSet, ?loaded⟩
    case six =>
      rw [← List.length_map LoadError.name]
      exact ordered.length_le
    case isSet =>
      intro e fails
      rw [← e.name_checked]
      exact exists_text_of_faulty (faulty_of_load fails).1
    case loaded =>
      intro loaded loads
      obtain ⟨pattern, decoded, -, rfl⟩ := (current.load_eq_ok_iff loaded).1 loads
      refine ⟨fun s => ?_, fun q kept => ?_, fun kept => ?_⟩
      · have kept : s.name ∉ errors.map LoadError.name := by
          intro met
          obtain ⟨c, -, same⟩ := List.mem_map.1 (ordered.subset met)
          exact c.name_ne_switch s same
        exact congrArg (fun r => r.value != 0)
          (reading_congr (s := .switch s) (run.get?_of_not_mem kept))
      · exact congrArg Reading.value (reading_congr (s := .quantity q) (run.get?_of_not_mem kept))
      · have same : current.patternText = env.patternText := run.get?_of_not_mem kept
        exact ⟨same, same ▸ decoded⟩

end Environment

end BenchSettings
