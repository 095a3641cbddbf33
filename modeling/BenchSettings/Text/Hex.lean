/-
BenchSettings.Text.Hex — hex digits.

One reader for digits of either case, by unit, serves fill patterns and the
escapes of quoted texts; two writers give the upper-case digits of a pattern
and the lower-case ones of an escape. `digit?_upper` and `digit?_lower` say
that what is written is read back.
-/

namespace BenchSettings.Text.Hex

/-- The value of a unit that is a hex digit of either case. -/
def digit? (unit : Nat) : Option Nat :=
  if 48 ≤ unit ∧ unit ≤ 57 then some (unit - 48)
  else if 65 ≤ unit ∧ unit ≤ 70 then some (unit - 55)
  else if 97 ≤ unit ∧ unit ≤ 102 then some (unit - 87)
  else none

/-- The number that hex digits denote, the highest first. -/
def number? (ds : List Char) : Option Nat :=
  ds.foldlM (fun n c => (digit? c.toNat).map (16 * n + ·)) 0

def upper (value : Nat) : Char :=
  if value < 10 then Char.ofNat (48 + value) else Char.ofNat (55 + value)

/-- The digits that `upper` writes. -/
def upperDigits : List Char := "0123456789ABCDEF".toList

theorem upper_mem {value : Nat} (h : value < 16) : upper value ∈ upperDigits := by
  have all : ∀ v < 16, upper v ∈ upperDigits := by decide
  exact all value h

def lower (value : Nat) : Char :=
  if value < 10 then Char.ofNat (48 + value) else Char.ofNat (87 + value)

theorem digit?_upper {value : Nat} (h : value < 16) : digit? (upper value).toNat = some value := by
  have all : ∀ v < 16, digit? (upper v).toNat = some v := by decide
  exact all value h

theorem digit?_lower {value : Nat} (h : value < 16) : digit? (lower value).toNat = some value := by
  have all : ∀ v < 16, digit? (lower v).toNat = some v := by decide
  exact all value h

/-- A digit is worth less than 16. -/
theorem lt_of_digit? {unit value : Nat} (h : digit? unit = some value) : value < 16 := by
  unfold digit? at h
  split at h
  · cases h; omega
  · split at h
    · cases h; omega
    · split at h
      · cases h; omega
      · cases h

/-- Four digits are read back as the unit that they were written for. -/
theorem number?_lower {unit : Nat} (h : unit < 0x10000) :
    number? ([unit / 0x1000, unit / 0x100 % 16, unit / 16 % 16, unit % 16].map lower) =
      some unit := by
  have a := digit?_lower (show unit / 0x1000 < 16 by omega)
  have b := digit?_lower (show unit / 0x100 % 16 < 16 by omega)
  have c := digit?_lower (show unit / 16 % 16 < 16 by omega)
  have d := digit?_lower (show unit % 16 < 16 by omega)
  simp only [number?, List.map_cons, List.map_nil, List.foldlM_cons, List.foldlM_nil, a, b, c, d,
    Option.map_some, Option.bind_eq_bind, Option.bind_some, Option.pure_def, Option.some.injEq]
  omega

end BenchSettings.Text.Hex
