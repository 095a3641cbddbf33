/-
BenchSettings.Proofs.Report.Table — the table of a run tells its configuration.

The rows of the settings stay on one line each, and each of them tells the
value it shows: a number stands right in a column that is wide enough for it
(`width_decimal_le`), and read leniently the column is the number again
(`lenient_padStart`). The text of a pattern has only hex digits in it.

One row is different. What it shows is any text that the environment has for
the copy engines, with line feeds in it perhaps, so that it can look like any
number of rows. `summary_faithful` says that this deceives nobody. The two
switches that decide about the row stand in front of it. All other settings
stand behind it, on as many lines as there always are, and these are told from
the end of the text.
-/
import BenchSettings.Proofs.Fill.Decoding
import BenchSettings.Proofs.Loading.Order
import BenchSettings.Proofs.Text.Lines
import BenchSettings.Report.Summary

namespace BenchSettings

/-! ## 1. Columns -/

/-- Blanks to the left of a number do not matter. -/
theorem lenient_padStart (column : Nat) (text : String) :
    lenient (Text.padStart column text) = lenient text := by
  have blanks : ∀ c ∈ List.replicate (column - Text.width text) ' ', Text.isSpace c = true := by
    intro c mem
    rw [List.eq_of_mem_replicate mem]
    rfl
  rw [lenient, Text.padStart, String.toList_append, String.toList_ofList,
    List.dropWhile_append_of_pos blanks]
  rfl

namespace Text

theorem oneLine_padStart {column : Nat} {s : String} (plain : OneLine s) :
    OneLine (padStart column s) := by
  refine oneLine_append.2 ⟨?_, plain⟩
  simp [OneLine]

theorem oneLine_padEnd {column : Nat} {s : String} (plain : OneLine s) :
    OneLine (padEnd column s) := by
  refine oneLine_append.2 ⟨plain, ?_⟩
  simp [OneLine]

theorem width_digits {ds : List Char} (digits : ∀ d ∈ ds, d.isDigit = true) :
    width (String.ofList ds) = ds.length := by
  have one : ∀ d ∈ ds, (charUnits d).length = 1 := by
    intro d mem
    have small : d.toNat < 0x10000 := by
      have digit := digits d mem
      simp only [Char.isDigit, Bool.and_eq_true, decide_eq_true_eq] at digit
      have : d.toNat ≤ 57 := digit.2
      omega
    rw [charUnits_of_lt small]
    rfl
  rw [width, units, String.toList_ofList, List.length_flatMap, List.map_congr_left one]
  simp

/-- A number of so many digits, with its sign. -/
theorem width_decimal_le {n : Int} {count : Nat} (pos : 0 < count)
    (small : n.natAbs < 10 ^ count) : width (decimal n) ≤ count + 1 := by
  have digits (k : Nat) (small : k < 10 ^ count) :
      width (String.ofList (decimalDigits k)) ≤ count := by
    rw [width_digits fun _ => isDigit_of_mem_decimalDigits]
    exact (Nat.length_toDigits_le_iff (by decide) pos).2 small
  cases n with
  | ofNat k =>
    have := digits k small
    rw [decimal]
    omega
  | negSucc k =>
    have := digits (k + 1) small
    have signed : decimal (.negSucc k) = "-" ++ String.ofList (decimalDigits (k + 1)) := by
      rw [decimal, ← List.singleton_append, String.ofList_append]
    have sign : width "-" = 1 := rfl
    rw [signed, width_append, sign]
    omega

end Text

namespace Report

/-! ## 2. Rows -/

/-- A row stays on its line if what it shows does. -/
theorem Row.oneLine_text {r : Row} (name : Text.OneLine r.name) (value : Text.OneLine r.value)
    (description : Text.OneLine r.description) : Text.OneLine r.text := by
  have bars : Text.OneLine " = " ∧ Text.OneLine " : " := by decide
  simp only [Row.text, Text.oneLine_append]
  exact ⟨⟨⟨⟨Text.oneLine_padEnd name, bars.1⟩, Text.oneLine_padStart value⟩, bars.2⟩, description⟩

/-- Rows of one variable whose values fit the column are told apart by the column and by what is
said of it. -/
theorem Row.text_inj {r s : Row} (name : r.name = s.name) (fits : Text.width r.value ≤ valueWidth)
    (fits' : Text.width s.value ≤ valueWidth) (same : r.text = s.text) :
    Text.padStart valueWidth r.value = Text.padStart valueWidth s.value ∧
      r.description = s.description := by
  have units := congrArg Text.units same
  simp only [Row.text, name, Text.units_append, List.append_assoc, List.append_cancel_left_eq]
    at units
  have column : (Text.units (Text.padStart valueWidth r.value)).length =
      (Text.units (Text.padStart valueWidth s.value)).length :=
    (Text.width_padStart fits).trans (Text.width_padStart fits').symm
  obtain ⟨value, rest⟩ := List.append_inj units column
  exact ⟨Text.units_injective value, Text.units_injective (List.append_cancel_left rest)⟩

/-- Rows that show one value are told apart by what is said of it. -/
theorem Row.description_inj {name value description other : String}
    (same : (Row.mk name value description).text = (Row.mk name value other).text) :
    description = other := by
  have chars := congrArg String.toList same
  simp only [Row.text, String.toList_append, List.append_assoc, List.append_cancel_left_eq]
    at chars
  exact String.toList_injective chars

/-- Every number that can be read fits its column. -/
theorem width_decimal_le_valueWidth {n : Int} (range : minWhole ≤ n ∧ n ≤ maxWhole) :
    Text.width (Text.decimal n) ≤ valueWidth := by
  have small : n.natAbs < 10 ^ (10 : Nat) := by
    simp only [minWhole, maxWhole] at range
    omega
  exact Nat.le_succ_of_le (Text.width_decimal_le (by decide) small)

/-- Rows that show numbers tell them. -/
theorem eq_of_numberRows (r s : Row) {m n : Int} (name : r.name = s.name)
    (value : r.value = Text.decimal m) (value' : s.value = Text.decimal n)
    (range : minWhole ≤ m ∧ m ≤ maxWhole) (range' : minWhole ≤ n ∧ n ≤ maxWhole)
    (same : r.text = s.text) : m = n := by
  have fits := width_decimal_le_valueWidth range
  have fits' := width_decimal_le_valueWidth range'
  rw [← value] at fits
  rw [← value'] at fits'
  obtain ⟨column, -⟩ := Row.text_inj name fits fits' same
  have read := congrArg lenient column
  rwa [lenient_padStart, lenient_padStart, value, value', lenient_decimal range.1 range.2,
    lenient_decimal range'.1 range'.2] at read

/-! ## 3. Rows of settings -/

/-- The number that stands for the state of a switch. -/
def stateNumber (on : Bool) : Int := if on then 1 else 0

theorem stateNumber_mem (on : Bool) : minWhole ≤ stateNumber on ∧ stateNumber on ≤ maxWhole := by
  cases on <;> decide

theorem value_switchRow (c : Configuration) (s : Switch) :
    (switchRow c s).value = Text.decimal (stateNumber (c.switch s)) := by
  rw [switchRow]
  cases c.switch s <;> rfl

theorem value_quantityRow {c : Configuration} {q : Quantity}
    (range : minWhole ≤ c.quantity q ∧ c.quantity q ≤ maxWhole) :
    (quantityRow c q).value = Text.decimal (c.quantity q) := by
  have all : (c.quantity q).natAbs ≤ Number.allDigitsBelow := by
    simp only [minWhole, maxWhole, Number.allDigitsBelow, Number.precision] at *
    omega
  show (Number.integer (c.quantity q)).text = _
  rw [Number.text, if_pos all]

theorem oneLine_switchRow (c : Configuration) (s : Switch) : Text.OneLine (switchRow c s).text := by
  have descriptions : ∀ s ∈ Switch.all, ∀ on : Bool, Text.OneLine (switchDescription s on) := by
    decide +kernel
  have names : ∀ s ∈ Switch.all, Text.OneLine s.name := by decide
  refine Row.oneLine_text (names s (Switch.mem_all s)) ?_
    (descriptions s (Switch.mem_all s) (c.switch s))
  rw [value_switchRow]
  exact Text.oneLine_decimal _

theorem oneLine_quantityDescription (q : Quantity) {value : String} (plain : Text.OneLine value) :
    Text.OneLine (quantityDescription q value) := by
  have around {before after : String} (left : Text.OneLine before) (right : Text.OneLine after) :
      Text.OneLine (before ++ value ++ after) :=
    Text.oneLine_append.2 ⟨Text.oneLine_append.2 ⟨left, plain⟩, right⟩
  cases q with
  | byteOffset => exact Text.oneLine_append.2 ⟨by decide +kernel, plain⟩
  | _ => exact around (by decide +kernel) (by decide +kernel)

theorem oneLine_quantityRow {c : Configuration} {q : Quantity}
    (range : minWhole ≤ c.quantity q ∧ c.quantity q ≤ maxWhole) :
    Text.OneLine (quantityRow c q).text := by
  have value : Text.OneLine (quantityRow c q).value := by
    rw [value_quantityRow range]
    exact Text.oneLine_decimal _
  have names : ∀ q ∈ Quantity.all, Text.OneLine q.name := by decide
  exact Row.oneLine_text (names q (Quantity.mem_all q)) value (oneLine_quantityDescription q value)

theorem switch_eq_of_text {c d : Configuration} {s : Switch}
    (same : (switchRow c s).text = (switchRow d s).text) : c.switch s = d.switch s := by
  have numbers := eq_of_numberRows (switchRow c s) (switchRow d s) rfl (value_switchRow c s)
    (value_switchRow d s) (stateNumber_mem _) (stateNumber_mem _) same
  cases hc : c.switch s <;> cases hd : d.switch s <;> simp [hc, hd, stateNumber] at numbers ⊢

theorem quantity_eq_of_text {c d : Configuration} {q : Quantity}
    (range : minWhole ≤ c.quantity q ∧ c.quantity q ≤ maxWhole)
    (range' : minWhole ≤ d.quantity q ∧ d.quantity q ≤ maxWhole)
    (same : (quantityRow c q).text = (quantityRow d q).text) : c.quantity q = d.quantity q :=
  eq_of_numberRows (quantityRow c q) (quantityRow d q) rfl (value_quantityRow range)
    (value_quantityRow range') range range' same

/-! ## 4. The row of the pattern -/

theorem oneLine_patternRow {c : Configuration}
    (spelled : FillPattern.decode c.patternText = .ok c.pattern) :
    Text.OneLine (patternRow c).text := by
  unfold patternRow
  split
  · decide +kernel
  · rename_i text given
    rw [given] at spelled
    have digits : Text.OneLine text := by
      intro mem
      exact absurd ((FillPattern.digits_of_decode spelled).2 _ mem) (by decide)
    have words : Text.OneLine fillPatternVariable ∧ Text.OneLine "(specified)" ∧
        Text.OneLine pseudoRandomDescription ∧ Text.OneLine "Pattern: " := by decide +kernel
    refine Row.oneLine_text words.1 words.2.1 ?_
    split
    · exact words.2.2.1
    · exact Text.oneLine_append.2 ⟨words.2.2.2, digits⟩

/-- Only the empty text spells no bytes. -/
theorem eq_empty_of_decode {text : String} (h : FillPattern.decode (some text) = .ok []) :
    text = "" := by
  have none : Nat.lcm elementSize (Text.width text / 2) = 0 := (FillPattern.length_decode h).symm
  have even := (FillPattern.digits_of_decode h).1
  have width : Text.width text = 0 := by
    rcases Nat.lcm_eq_zero_iff.1 none with size | pairs
    · cases size
    · omega
  exact Text.units_injective (List.eq_nil_of_length_eq_zero width)

/-- The word in the value column says whether there is a text: the longer one leaves no blank. -/
theorem unspecified_ne_specified (description other : String) :
    (Row.mk fillPatternVariable "(unspecified)" description).text ≠
      (Row.mk fillPatternVariable "(specified)" other).text := by
  intro same
  have front : Text.padStart valueWidth "(unspecified)" = "(unspecified)" ∧
      Text.padStart valueWidth "(specified)" = " (specified)" := by decide +kernel
  have chars := congrArg String.toList same
  simp only [Row.text, String.toList_append, List.append_assoc, front,
    List.append_cancel_left_eq] at chars
  exact absurd (List.cons.inj chars).1 (by decide)

theorem pseudoRandom_ne_pattern (text : String) :
    pseudoRandomDescription ≠ "Pattern: " ++ text := by
  intro same
  have words : pseudoRandomDescription.toList[1]? = some 's' ∧
      "Pattern: ".toList[1]? = some 'a' ∧ 1 < "Pattern: ".toList.length := by decide +kernel
  have letters := words.1
  rw [same, String.toList_append, List.getElem?_append_left words.2.2, words.2.1] at letters
  exact absurd (Option.some.inj letters) (by decide)

/-- What is said of a text tells the text. -/
theorem patternDescription_inj {text other : String} {bytes more : List UInt8}
    (spelled : FillPattern.decode (some text) = .ok bytes)
    (spelled' : FillPattern.decode (some other) = .ok more)
    (same : (if bytes = [] then pseudoRandomDescription else "Pattern: " ++ text) =
      if more = [] then pseudoRandomDescription else "Pattern: " ++ other) : text = other := by
  by_cases empty : bytes = [] <;> by_cases empty' : more = [] <;>
    simp only [empty, empty', if_true, if_false] at same
  · subst empty empty'
    rw [eq_empty_of_decode spelled, eq_empty_of_decode spelled']
  · exact absurd same (pseudoRandom_ne_pattern other)
  · exact absurd same.symm (pseudoRandom_ne_pattern text)
  · have chars := congrArg String.toList same
    simp only [String.toList_append, List.append_cancel_left_eq] at chars
    exact String.toList_injective chars

theorem patternText_eq_of_text {c d : Configuration}
    (spelled : FillPattern.decode c.patternText = .ok c.pattern)
    (spelled' : FillPattern.decode d.patternText = .ok d.pattern)
    (same : (patternRow c).text = (patternRow d).text) : c.patternText = d.patternText := by
  unfold patternRow at same
  cases hc : c.patternText with
  | none =>
    cases hd : d.patternText with
    | none => rfl
    | some other =>
      simp only [hc, hd] at same
      exact absurd same (unspecified_ne_specified _ _)
  | some text =>
    cases hd : d.patternText with
    | none =>
      simp only [hc, hd] at same
      exact absurd same.symm (unspecified_ne_specified _ _)
    | some other =>
      rw [hc] at spelled
      rw [hd] at spelled'
      simp only [hc, hd] at same
      have description := Row.description_inj same
      exact congrArg some (patternDescription_inj spelled spelled' description)

/-! ## 5. The table -/

/-- The numbers of a configuration fit their column, and its bytes are spelled by its text. -/
structure Tabulated (c : Configuration) : Prop where
  range : ∀ q, minWhole ≤ c.quantity q ∧ c.quantity q ≤ maxWhole
  spelled : FillPattern.decode c.patternText = .ok c.pattern

theorem tabulated_of_load {env : Environment} {loaded : Loaded} (loads : env.load = .ok loaded) :
    Tabulated loaded.configuration := by
  obtain ⟨pattern, decoded, -, rfl⟩ := (env.load_eq_ok_iff loaded).1 loads
  exact ⟨env.quantityValue_mem, decoded⟩

/-- The row about the copy engines, where there is one. -/
def engineRows (c : Configuration) (env : Environment) : List Row :=
  if usesRuntimeCopies c then [sdmaRow env] else []

/-- The rows behind it. -/
def lastRows (c : Configuration) : List Row :=
  [Switch.singleSync, .interactive, .combineTiming, .showAddr, .csv].map (switchRow c) ++
    Quantity.all.map (quantityRow c) ++ [patternRow c]

theorem summary_of_console {c : Configuration} (console : c.switch .csv = false)
    (env : Environment) :
    summary c env = Text.unlines ((heading ++ (switchRow c .hipCall).text ::
      (switchRow c .memset).text :: (engineRows c env).map Row.text) ++
        (lastRows c).map Row.text) := by
  rw [summary, if_neg (by simp [console])]
  simp [rows, engineRows, lastRows]

theorem oneLine_lastRows {c : Configuration} (tabulated : Tabulated c) :
    ∀ line ∈ (lastRows c).map Row.text, Text.OneLine line := by
  intro line mem
  obtain ⟨r, there, rfl⟩ := List.mem_map.1 mem
  simp only [lastRows, List.mem_append, List.mem_map, List.mem_singleton] at there
  rcases there with (⟨s, -, rfl⟩ | ⟨q, -, rfl⟩) | rfl
  · exact oneLine_switchRow c s
  · exact oneLine_quantityRow (tabulated.range q)
  · exact oneLine_patternRow tabulated.spelled

theorem configuration_eq_of_summary {c d : Configuration} (tabulated : Tabulated c)
    (tabulated' : Tabulated d) (console : c.switch .csv = false) (console' : d.switch .csv = false)
    {env other : Environment} (same : summary c env = summary d other) : c = d := by
  rw [summary_of_console console, summary_of_console console'] at same
  obtain ⟨front, last⟩ := Text.unlines_append_inj (oneLine_lastRows tabulated)
    (oneLine_lastRows tabulated') (by simp [lastRows]) same
  obtain ⟨hipCall, front⟩ := Text.unlines_cons_inj (oneLine_switchRow c .hipCall)
    (oneLine_switchRow d .hipCall) (Text.unlines_append_cancel front)
  obtain ⟨memset, -⟩ := Text.unlines_cons_inj (oneLine_switchRow c .memset)
    (oneLine_switchRow d .memset) front
  simp only [lastRows, Quantity.all, List.map_cons, List.map_nil, List.cons_append,
    List.nil_append, List.cons.injEq, and_true] at last
  obtain ⟨sync, interactive, timing, addr, -, offset, warmups, iterations, sampling, cpu, pattern⟩ :=
    last
  have switches : c.switch = d.switch := by
    funext s
    cases s with
    | csv => rw [console, console']
    | hipCall => exact switch_eq_of_text hipCall
    | memset => exact switch_eq_of_text memset
    | singleSync => exact switch_eq_of_text sync
    | interactive => exact switch_eq_of_text interactive
    | combineTiming => exact switch_eq_of_text timing
    | showAddr => exact switch_eq_of_text addr
  have quantities : c.quantity = d.quantity := by
    funext q
    have told (same : (quantityRow c q).text = (quantityRow d q).text) :
        c.quantity q = d.quantity q :=
      quantity_eq_of_text (tabulated.range q) (tabulated'.range q) same
    cases q with
    | byteOffset => exact told offset
    | warmups => exact told warmups
    | iterations => exact told iterations
    | samplingFactor => exact told sampling
    | cpuPerLink => exact told cpu
  have texts : c.patternText = d.patternText :=
    patternText_eq_of_text tabulated.spelled tabulated'.spelled pattern
  have bytes : c.pattern = d.pattern := by
    have spelled := tabulated.spelled
    rw [texts, tabulated'.spelled] at spelled
    exact (Except.ok.inj spelled).symm
  cases c
  cases d
  exact Configuration.mk.injEq .. ▸ ⟨switches, quantities, bytes, texts⟩

/-- The tables of two configurations that load are the same text only if the configurations are the
same, whatever is said of the copy engines, and no table is printed exactly while CSV is on. -/
theorem summary_faithful {env other : Environment} {loaded otherLoaded : Loaded}
    (loads : env.load = .ok loaded) (otherLoads : other.load = .ok otherLoaded)
    (report otherReport : Environment) :
    (summary loaded.configuration report = summary otherLoaded.configuration otherReport →
      summary loaded.configuration report ≠ "" →
      loaded.configuration = otherLoaded.configuration) ∧
    (summary loaded.configuration report = "" ↔ loaded.configuration.switch .csv = true) := by
  refine ⟨fun same printed => ?_, summary_eq_empty_iff _ _⟩
  have printed' : summary otherLoaded.configuration otherReport ≠ "" := same ▸ printed
  rw [ne_eq, summary_eq_empty_iff, Bool.not_eq_true] at printed printed'
  exact configuration_eq_of_summary (tabulated_of_load loads) (tabulated_of_load otherLoads)
    printed printed' same

/-- Copies made by the runtime, and a pattern of one byte. -/
def engineProcess : Environment :=
  .ofList [("USE_HIP_CALL", some "1"), ("FILL_PATTERN", some "0f"), ("BYTE_OFFSET", some "-8")]

/-- The same settings, spelled otherwise. -/
def engineProcessRespelled : Environment :=
  .ofList [("BYTE_OFFSET", some " -08x"), ("USE_HIP_CALL", some "+77"), ("FILL_PATTERN", some "0f")]

/-- A text for the copy engines that imitates the row behind its own. -/
def forgedReport : Environment :=
  .ofList [("HSA_ENABLE_SDMA",
    some "1 : Using DMA copy engines\nUSE_SINGLE_SYNC      =            1 : Synchronizing only once")]

theorem summary_faithful_forged :
    ∃ loaded otherLoaded, engineProcess.load = .ok loaded ∧
      engineProcessRespelled.load = .ok otherLoaded ∧
      summary loaded.configuration forgedReport =
        summary otherLoaded.configuration forgedReport ∧
      summary loaded.configuration forgedReport ≠ "" ∧
      loaded.configuration = otherLoaded.configuration := by
  have loads : engineProcess.load =
      .ok ⟨engineProcess.configurationOf [0x0F, 0x0F, 0x0F, 0x0F], engineProcess.warnings⟩ :=
    (engineProcess.load_eq_ok_iff _).2 ⟨_, rfl, fun q => by cases q <;> decide +kernel, rfl⟩
  have otherLoads : engineProcessRespelled.load =
      .ok ⟨engineProcessRespelled.configurationOf [0x0F, 0x0F, 0x0F, 0x0F],
        engineProcessRespelled.warnings⟩ :=
    (engineProcessRespelled.load_eq_ok_iff _).2
      ⟨_, rfl, fun q => by cases q <;> decide +kernel, rfl⟩
  have same : summary (engineProcess.configurationOf [0x0F, 0x0F, 0x0F, 0x0F]) forgedReport =
      summary (engineProcessRespelled.configurationOf [0x0F, 0x0F, 0x0F, 0x0F]) forgedReport := by
    have sameRows : rows (engineProcess.configurationOf [0x0F, 0x0F, 0x0F, 0x0F]) forgedReport =
        rows (engineProcessRespelled.configurationOf [0x0F, 0x0F, 0x0F, 0x0F]) forgedReport := by
      decide +kernel
    have sameOutput : (engineProcess.configurationOf [0x0F, 0x0F, 0x0F, 0x0F]).switch .csv =
        (engineProcessRespelled.configurationOf [0x0F, 0x0F, 0x0F, 0x0F]).switch .csv := by
      decide +kernel
    rw [summary, summary, sameRows, sameOutput]
  have printed : summary (engineProcess.configurationOf [0x0F, 0x0F, 0x0F, 0x0F]) forgedReport ≠
      "" := by
    rw [ne_eq, summary_eq_empty_iff]
    decide +kernel
  obtain ⟨told, -⟩ := summary_faithful loads otherLoads forgedReport forgedReport
  exact ⟨_, _, loads, otherLoads, same, printed, told same printed⟩

end Report

end BenchSettings
