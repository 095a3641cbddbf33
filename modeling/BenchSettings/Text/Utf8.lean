/-
BenchSettings.Text.Utf8 — bytes as text.

A file is bytes. Decoding them as UTF-8 never fails: where the bytes are no
UTF-8, each longest part that could have begun a character becomes one
replacement character. Encoding is the other direction, and `decode_encode`
says that an encoded text is decoded as itself.
-/

namespace BenchSettings.Text.Utf8

/-! ## 1. Decoding -/

/-- A character that has begun: its bits so far, how many bytes come after the next one, and the
range in which the next one has to be. -/
structure Pending where
  bits : Nat
  missing : Nat
  low : Nat
  high : Nat

def replacement : Char := '\ufffd'

/-- What a byte begins: a character at once, a longer one, or nothing. The ranges leave out
spellings that are too long, surrogates, and what is beyond the last code point. -/
def begin? (b : Nat) : List Char × Option Pending :=
  if b < 0x80 then ([Char.ofNat b], none)
  else if b < 0xc2 then ([replacement], none)
  else if b < 0xe0 then ([], some ⟨b - 0xc0, 0, 0x80, 0xbf⟩)
  else if b = 0xe0 then ([], some ⟨0, 1, 0xa0, 0xbf⟩)
  else if b = 0xed then ([], some ⟨0xd, 1, 0x80, 0x9f⟩)
  else if b < 0xf0 then ([], some ⟨b - 0xe0, 1, 0x80, 0xbf⟩)
  else if b = 0xf0 then ([], some ⟨0, 2, 0x90, 0xbf⟩)
  else if b < 0xf4 then ([], some ⟨b - 0xf0, 2, 0x80, 0xbf⟩)
  else if b = 0xf4 then ([], some ⟨4, 2, 0x80, 0x8f⟩)
  else ([replacement], none)

def decodeFrom : Option Pending → List UInt8 → List Char
  | none, [] => []
  | some _, [] => [replacement]
  | none, b :: rest =>
    let (out, next) := begin? b.toNat
    out ++ decodeFrom next rest
  | some p, b :: rest =>
    if p.low ≤ b.toNat ∧ b.toNat ≤ p.high then
      let bits := p.bits * 64 + (b.toNat - 0x80)
      match p.missing with
      | 0 => Char.ofNat bits :: decodeFrom none rest
      | missing + 1 => decodeFrom (some ⟨bits, missing, 0x80, 0xbf⟩) rest
    else
      let (out, next) := begin? b.toNat
      replacement :: (out ++ decodeFrom next rest)

def decode (bytes : List UInt8) : List Char := decodeFrom none bytes

/-! ## 2. Encoding -/

/-- The bytes of a code point, as numbers. -/
def encodeNat (n : Nat) : List Nat :=
  if n < 0x80 then [n]
  else if n < 0x800 then [0xc0 + n / 64, 0x80 + n % 64]
  else if n < 0x10000 then [0xe0 + n / 4096, 0x80 + n / 64 % 64, 0x80 + n % 64]
  else [0xf0 + n / 262144, 0x80 + n / 4096 % 64, 0x80 + n / 64 % 64, 0x80 + n % 64]

def encode (cs : List Char) : List UInt8 :=
  cs.flatMap fun c => (encodeNat c.toNat).map UInt8.ofNat

/-! ## 3. Encoding, then decoding -/

theorem toNat_ofNat_of_lt {n : Nat} (h : n < 256) : (UInt8.ofNat n).toNat = n := by
  simp [UInt8.toNat_ofNat', Nat.mod_eq_of_lt h]

/-- A byte in its range goes on with a character. -/
theorem decodeFrom_continue {p : Pending} {b : Nat} (h : p.low ≤ b ∧ b ≤ p.high) (hb : b < 256)
    (rest : List UInt8) :
    decodeFrom (some p) (UInt8.ofNat b :: rest) =
      match p.missing with
      | 0 => Char.ofNat (p.bits * 64 + (b - 0x80)) :: decodeFrom none rest
      | missing + 1 => decodeFrom (some ⟨p.bits * 64 + (b - 0x80), missing, 0x80, 0xbf⟩) rest := by
  rw [decodeFrom, toNat_ofNat_of_lt hb, if_pos h]

theorem begin?_ascii {b : Nat} (h : b < 0x80) : begin? b = ([Char.ofNat b], none) := by
  rw [begin?, if_pos h]

theorem begin?_two {b : Nat} (lo : 0xc2 ≤ b) (hi : b < 0xe0) :
    begin? b = ([], some ⟨b - 0xc0, 0, 0x80, 0xbf⟩) := by
  rw [begin?, if_neg (by omega), if_neg (by omega), if_pos hi]

theorem begin?_three {b : Nat} (lo : 0xe0 ≤ b) (hi : b < 0xf0) :
    begin? b = ([], some ⟨b - 0xe0, 1, if b = 0xe0 then 0xa0 else 0x80,
      if b = 0xed then 0x9f else 0xbf⟩) := by
  rw [begin?, if_neg (by omega), if_neg (by omega), if_neg (by omega)]
  by_cases first : b = 0xe0
  · subst first; rfl
  · by_cases last : b = 0xed
    · subst last; rfl
    · rw [if_neg first, if_neg last, if_pos hi, if_neg first, if_neg last]

theorem begin?_four {b : Nat} (lo : 0xf0 ≤ b) (hi : b < 0xf5) :
    begin? b = ([], some ⟨b - 0xf0, 2, if b = 0xf0 then 0x90 else 0x80,
      if b = 0xf4 then 0x8f else 0xbf⟩) := by
  rw [begin?, if_neg (by omega), if_neg (by omega), if_neg (by omega), if_neg (by omega),
    if_neg (by omega), if_neg (by omega)]
  by_cases first : b = 0xf0
  · subst first; rfl
  · by_cases last : b = 0xf4
    · subst last; rfl
    · rw [if_neg first, if_pos (by omega), if_neg first, if_neg last]

/-- The bytes of a code point that is a character decode to it, whatever follows. -/
theorem decodeFrom_encodeNat {n : Nat} (valid : n < 0xD800 ∨ 0xDFFF < n ∧ n < 0x110000)
    (rest : List UInt8) :
    decodeFrom none ((encodeNat n).map UInt8.ofNat ++ rest) =
      Char.ofNat n :: decodeFrom none rest := by
  by_cases h₁ : n < 0x80
  · rw [encodeNat, if_pos h₁, List.map_singleton, List.singleton_append, decodeFrom,
      toNat_ofNat_of_lt (by omega), begin?_ascii h₁]
    rfl
  · by_cases h₂ : n < 0x800
    · have back : (0xc0 + n / 64 - 0xc0) * 64 + (0x80 + n % 64 - 0x80) = n := by omega
      rw [encodeNat, if_neg h₁, if_pos h₂, List.map_cons, List.map_singleton, List.cons_append,
        List.singleton_append, decodeFrom, toNat_ofNat_of_lt (by omega),
        begin?_two (by omega) (by omega)]
      show [] ++ decodeFrom (some ⟨_, _, _, _⟩) _ = _
      rw [List.nil_append, decodeFrom_continue
        ⟨by show 0x80 ≤ _; omega, by show _ ≤ 0xbf; omega⟩ (by omega)]
      show Char.ofNat _ :: _ = _
      rw [back]
    · by_cases h₃ : n < 0x10000
      · have back : ((0xe0 + n / 4096 - 0xe0) * 64 + (0x80 + n / 64 % 64 - 0x80)) * 64 +
            (0x80 + n % 64 - 0x80) = n := by omega
        rw [encodeNat, if_neg h₁, if_neg h₂, if_pos h₃, List.map_cons, List.map_cons,
          List.map_singleton, List.cons_append, List.cons_append, List.singleton_append, decodeFrom,
          toNat_ofNat_of_lt (by omega), begin?_three (by omega) (by omega)]
        show [] ++ decodeFrom (some ⟨_, _, _, _⟩) _ = _
        rw [List.nil_append, decodeFrom_continue ⟨by show ite _ _ _ ≤ _; split <;> omega,
          by show _ ≤ ite _ _ _; split <;> omega⟩ (by omega)]
        show decodeFrom (some ⟨_, _, _, _⟩) _ = _
        rw [decodeFrom_continue
          ⟨by show 0x80 ≤ _; omega, by show _ ≤ 0xbf; omega⟩ (by omega)]
        show Char.ofNat _ :: _ = _
        rw [back]
      · have back : (((0xf0 + n / 262144 - 0xf0) * 64 + (0x80 + n / 4096 % 64 - 0x80)) * 64 +
            (0x80 + n / 64 % 64 - 0x80)) * 64 + (0x80 + n % 64 - 0x80) = n := by omega
        rw [encodeNat, if_neg h₁, if_neg h₂, if_neg h₃, List.map_cons, List.map_cons, List.map_cons,
          List.map_singleton, List.cons_append, List.cons_append, List.cons_append,
          List.singleton_append, decodeFrom, toNat_ofNat_of_lt (by omega),
          begin?_four (by omega) (by omega)]
        show [] ++ decodeFrom (some ⟨_, _, _, _⟩) _ = _
        rw [List.nil_append, decodeFrom_continue ⟨by show ite _ _ _ ≤ _; split <;> omega,
          by show _ ≤ ite _ _ _; split <;> omega⟩ (by omega)]
        show decodeFrom (some ⟨_, _, _, _⟩) _ = _
        rw [decodeFrom_continue
          ⟨by show 0x80 ≤ _; omega, by show _ ≤ 0xbf; omega⟩ (by omega)]
        show decodeFrom (some ⟨_, _, _, _⟩) _ = _
        rw [decodeFrom_continue
          ⟨by show 0x80 ≤ _; omega, by show _ ≤ 0xbf; omega⟩ (by omega)]
        show Char.ofNat _ :: _ = _
        rw [back]

/-- An encoded text is decoded as itself. -/
theorem decode_encode (cs : List Char) : decode (encode cs) = cs := by
  induction cs with
  | nil => rfl
  | cons c rest ih =>
    have valid : c.toNat < 0xD800 ∨ 0xDFFF < c.toNat ∧ c.toNat < 0x110000 := c.valid
    rw [decode, encode, List.flatMap_cons, decodeFrom_encodeNat valid, Char.ofNat_toNat]
    exact congrArg (c :: ·) ih

end BenchSettings.Text.Utf8
