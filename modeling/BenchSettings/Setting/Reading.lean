/-
BenchSettings.Setting.Reading — reading a whole number from the environment.

A variable that is set always yields a number. The lenient reading
(`lenient`) skips ASCII space, takes one sign and the digits that follow, and
ignores the rest; what has no digits reads as 0. The digits are read as a
double, however many they are, and the result is clamped to the signed 32-bit
range. Leniency is never silent: `read` also reads the strict form of the
trimmed text as a double and complains when the text is not a whole number, or
when the double is not the number that was used.
-/
import BenchSettings.Environment
import BenchSettings.Number.Nearest
import BenchSettings.Text.Blank

namespace BenchSettings

/-! ## 1. The lenient number -/

/-- The least value a setting can have. -/
def minWhole : Int := -2147483648

def maxWhole : Int := 2147483647

/-- The nearest value in the signed 32-bit range. -/
def saturate (n : Int) : Int := min maxWhole (max minWhole n)

/-- The integer part of a number, clamped to the signed 32-bit range. -/
def Number.saturated : Number → Int
  | .infinite negative => if negative then minWhole else maxWhole
  | x => saturate (x.truncate?.getD 0)

/-- The lenient reading: leading ASCII space, one sign and a run of digits count, all after that is
ignored, and a text without leading digits is 0. -/
def lenient (text : String) : Int :=
  let (negative, rest) := Text.splitSign (text.toList.dropWhile Text.isSpace)
  (Number.ofDigits negative (rest.takeWhile Char.isDigit)).saturated

theorem saturate_mem (n : Int) : minWhole ≤ saturate n ∧ saturate n ≤ maxWhole := by
  simp only [saturate, minWhole, maxWhole]; omega

theorem saturate_eq_self {n : Int} (lo : minWhole ≤ n) (hi : n ≤ maxWhole) : saturate n = n := by
  simp only [saturate, minWhole, maxWhole] at *; omega

theorem saturated_mem (x : Number) : minWhole ≤ x.saturated ∧ x.saturated ≤ maxWhole := by
  unfold Number.saturated
  split
  · split <;> decide
  · exact saturate_mem _

/-! ## 2. Complaints -/

inductive Complaint where
  | notInteger
  | outOfRange
  deriving DecidableEq, Repr

/-- What is wrong with a text from which `value` was read. -/
def complaint? (text : String) (value : Int) : Option Complaint :=
  match Text.plainDigits? (Text.trim text) with
  | none => some .notInteger
  | some (negative, ds) =>
    if Number.ofDigits negative ds = .integer value then none else some .outOfRange

/-! ## 3. Readings -/

/-- A complaint with what it is about: the variable, its text as it stands, and the number used. -/
structure Warning where
  name : String
  text : String
  used : Int
  complaint : Complaint
  deriving DecidableEq, Repr

def Complaint.wording : Complaint → String
  | .notInteger => "is not an integer"
  | .outOfRange => "is out of range"

/-- The line a user sees. -/
def Warning.message (w : Warning) : String :=
  w.name ++ "=\"" ++ w.text ++ "\" " ++ w.complaint.wording ++ "; using " ++ Text.decimal w.used

/-- A number that was read, with the warning it gave rise to. -/
structure Reading where
  value : Int
  warning : Option Warning
  deriving DecidableEq, Repr

/-- Reads a variable, which has the value `default` while it is unset. -/
def Environment.read (env : Environment) (name : String) (default : Int) : Reading :=
  match env.get? name with
  | none => ⟨default, none⟩
  | some text =>
    let value := lenient text
    ⟨value, (complaint? text value).map fun complaint => ⟨name, text, value, complaint⟩⟩

namespace Environment

variable {env : Environment} {name : String}

theorem read_of_unset (h : env.get? name = none) (default : Int) :
    env.read name default = ⟨default, none⟩ := by
  simp only [read, h]

theorem read_of_set {text : String} (h : env.get? name = some text) (default : Int) :
    env.read name default =
      ⟨lenient text, (complaint? text (lenient text)).map fun complaint =>
        ⟨name, text, lenient text, complaint⟩⟩ := by
  simp only [read, h]

end Environment

end BenchSettings
