/-
BenchSettings.Proofs.Loading.Invariants — what every loaded configuration
satisfies.

The invariants of a configuration are kept in different places. Numbers are in
range because reading clamps them, whatever the text; they keep their rules
because the check has passed; the pattern is whole elements because decoding
repeats it. `invariants_of_load` brings them together for every environment
that loads, with texts that were clamped to a bound or that decode to no bytes
among them, and it ends with the check: what was loaded would be accepted
again, unchanged.
-/
import BenchSettings.Proofs.Check.Accepted
import BenchSettings.Proofs.Fill.Decoding

namespace BenchSettings.Environment

/-- Whatever was read, the numbers are written with all their digits. -/
theorem written_configurationOf (env : Environment) (pattern : List UInt8) :
    (env.configurationOf pattern).Written :=
  env.natAbs_quantityValue

/-- What loads keeps every rule. -/
theorem admissible_of_load {env : Environment} {loaded : Loaded} (loads : env.load = .ok loaded) :
    loaded.configuration.Admissible := by
  obtain ⟨pattern, decoded, holds, rfl⟩ := (env.load_eq_ok_iff loaded).1 loads
  constructor
  case obeys =>
    intro q
    exact (q.holds_iff _).1 (holds q)
  case whole => exact Nat.dvd_of_mod_eq_zero (FillPattern.length_decode_mod decoded)

/-- Every configuration that an environment can load has its numbers in the signed 32-bit range and
within their rules; its pattern text is that of the environment, hex digits in pairs, and its bytes
are spelled by that text and as many as fill whole elements; and a check accepts it as it is. -/
theorem invariants_of_load {env : Environment} {loaded : Loaded} (loads : env.load = .ok loaded) :
    let c := loaded.configuration
    (∀ q : Quantity, -2147483648 ≤ c.quantity q ∧ c.quantity q ≤ 2147483647) ∧
    (4 ∣ c.quantity .byteOffset ∧ 0 ≤ c.quantity .warmups ∧ 1 ≤ c.quantity .iterations ∧
      1 ≤ c.quantity .samplingFactor ∧ 1 ≤ c.quantity .cpuPerLink) ∧
    c.patternText = env.get? fillPatternVariable ∧
    (∀ text, c.patternText = some text →
      (Text.width text % 2 = 0 ∧ ∀ digit ∈ text.toList, digit ∈ Text.Hex.digits) ∧
      FillPattern.decode (some text) = .ok c.pattern ∧
      (∀ k < c.pattern.length,
        c.pattern[k]? = FillPattern.pairByte? (Text.units text) (k % (Text.width text / 2))) ∧
      c.pattern.length = Nat.lcm 4 (Text.width text / 2)) ∧
    (c.patternText = none → c.pattern = []) ∧
    Check.configuration (.object (Check.configurationMembers c)) = .ok c := by
  have admissible := admissible_of_load loads
  obtain ⟨pattern, decoded, -, rfl⟩ := (env.load_eq_ok_iff loaded).1 loads
  refine ⟨env.quantityValue_mem,
    ⟨admissible.obeys .byteOffset, admissible.obeys .warmups, admissible.obeys .iterations,
      admissible.obeys .samplingFactor, admissible.obeys .cpuPerLink⟩,
    rfl, ?given, ?unset, ?again⟩
  case given =>
    intro text set
    replace decoded : FillPattern.decode (some text) = .ok pattern := set ▸ decoded
    exact ⟨FillPattern.digits_of_decode decoded, decoded,
      fun _ => FillPattern.getElem?_decode decoded, FillPattern.length_decode decoded⟩
  case unset =>
    intro none
    replace decoded : FillPattern.decode .none = .ok pattern := none ▸ decoded
    exact (Except.ok.inj decoded).symm
  case again =>
    exact Check.configuration_configurationMembers admissible (env.written_configurationOf pattern)

/-- An environment with numbers beyond both bounds, and a pattern of six digits in either case. -/
def extreme : Environment :=
  .ofList
    [("BYTE_OFFSET", some "-99999999999999999999"), ("NUM_WARMUPS", some "+99999999999"),
     ("SHOW_ADDR", some "x"), ("FILL_PATTERN", some "0fF0aA")]

theorem invariants_of_load_extreme :
    ∃ loaded, extreme.load = .ok loaded ∧
      loaded.configuration.quantity .byteOffset = -2147483648 ∧
      loaded.configuration.quantity .warmups = 2147483647 ∧
      loaded.configuration.patternText = some "0fF0aA" ∧
      loaded.configuration.pattern.length = Nat.lcm 4 3 ∧
      Check.configuration (.object (Check.configurationMembers loaded.configuration)) =
        .ok loaded.configuration := by
  have loads : extreme.load = .ok ⟨extreme.configurationOf
      [0x0F, 0xF0, 0xAA, 0x0F, 0xF0, 0xAA, 0x0F, 0xF0, 0xAA, 0x0F, 0xF0, 0xAA],
      extreme.warnings⟩ :=
    (extreme.load_eq_ok_iff _).2 ⟨_, rfl, fun q => by cases q <;> decide +kernel, rfl⟩
  obtain ⟨-, -, -, -, -, again⟩ := invariants_of_load loads
  exact ⟨_, loads, by decide +kernel, by decide +kernel, by decide +kernel, rfl, again⟩

end BenchSettings.Environment
