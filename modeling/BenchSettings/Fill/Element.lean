/-
BenchSettings.Fill.Element — the elements that source memory is filled with.

An element is a single-precision number, kept as its 32 bits. Filling
(`Memory.fill`) takes pattern bytes and a count. The bytes are some of those of
a buffer (`View`), and nothing else of the buffer is read. Without bytes element
`i` is the pseudo-random whole number `i mod 383 + 31`; with bytes each element
is read from four of them, lowest byte first, at an offset that starts over when
the bytes are used up. A count that memory cannot have is refused before a
pattern that is not whole elements.

How many elements a memory can hold, and under which bits it keeps what is
"not a number", is up to the machine, so `Memory` holds both. `fill` is the case
of the usual one, and of a buffer that is all pattern.

`toBytes_ofBytes` says that an element gives back the bytes it was read from.
-/
import BenchSettings.Number.Shortest
import BenchSettings.Setting.Table

namespace BenchSettings

/-! ## 1. Elements -/

/-- A single-precision number, as its bits. -/
structure Element where
  bits : UInt32
  deriving DecidableEq, Repr

namespace Element

/-- The element spelled by four bytes, the lowest first. -/
def ofBytes (b₀ b₁ b₂ b₃ : UInt8) : Element :=
  ⟨UInt32.ofNat (b₀.toNat + 256 * (b₁.toNat + 256 * (b₂.toNat + 256 * b₃.toNat)))⟩

def toBytes (e : Element) : List UInt8 :=
  let n := e.bits.toNat
  [UInt8.ofNat n, UInt8.ofNat (n / 256), UInt8.ofNat (n / 65536), UInt8.ofNat (n / 16777216)]

/-- The element spelled by the four bytes from a place on. -/
def spelled (byte : Nat → UInt8) (place : Nat) : Element :=
  ofBytes (byte place) (byte (place + 1)) (byte (place + 2)) (byte (place + 3))

theorem toBytes_ofBytes (b₀ b₁ b₂ b₃ : UInt8) :
    (ofBytes b₀ b₁ b₂ b₃).toBytes = [b₀, b₁, b₂, b₃] := by
  have h₀ := b₀.toNat_lt
  have h₁ := b₁.toNat_lt
  have h₂ := b₂.toNat_lt
  have h₃ := b₃.toNat_lt
  simp only [toBytes, ofBytes, UInt32.toNat_ofNat', List.cons.injEq, and_true, ← UInt8.toNat_inj,
    UInt8.toNat_ofNat']
  omega

/-- How many bits of an element hold the digits after the leading one. -/
def fractionWidth : Nat := 23

def exponentWidth : Nat := 8

/-- What is added to an exponent to write it without a sign. -/
def bias : Nat := 127

/-- The element with the value of a natural number below 2 ^ 24: the number itself, shifted so that
its leading bit is the hidden one, under the exponent of that bit. -/
def ofNat (n : Nat) : Element :=
  if n = 0 then ⟨0⟩
  else
    let lead := Nat.log2 n
    ⟨UInt32.ofNat ((bias + lead) * 2 ^ fractionWidth + (n - 2 ^ lead) * 2 ^ (fractionWidth - lead))⟩

def exponentBits (e : Element) : Nat := e.bits.toNat / 2 ^ fractionWidth % 2 ^ exponentWidth

/-- The bits after the leading one. -/
def fractionBits (e : Element) : Nat := e.bits.toNat % 2 ^ fractionWidth

def isNaN (e : Element) : Bool := e.exponentBits == 255 && e.fractionBits != 0

/-- The value of an element, if it is finite. -/
def value? (e : Element) : Option Rat :=
  let sign : Int := if e.bits.toNat / 2 ^ (fractionWidth + exponentWidth) = 0 then 1 else -1
  let scale : Nat := bias + fractionWidth
  if e.exponentBits = 255 then none
  else if e.exponentBits = 0 then some (mkRat (sign * e.fractionBits) (2 ^ (scale - 1)))
  else
    some (mkRat (sign * ((2 ^ fractionWidth + e.fractionBits : Nat) * 2 ^ e.exponentBits : Nat))
      (2 ^ scale))

end Element

/-! ## 2. The pseudo-random fill -/

def fillModulus : Nat := 383

def fillOffset : Nat := 31

/-- The value of the pseudo-random fill at an index. The remainder takes the sign of the index. -/
def pseudoRandom (index : Int) : Int := Int.tmod index fillModulus + fillOffset

/-! ## 3. Filling -/

/-- What a machine decides about memory: how many elements it can hold, and how it keeps an element
that is not a number. Such an element stays one, but it may come to have other bits. -/
structure Memory where
  maxElements : Nat
  keepNaN : Element → Element
  isNaN_keepNaN : ∀ e : Element, e.isNaN = true → (keepNaN e).isNaN = true

inductive FillError where
  /-- No memory has so many elements. -/
  | badCount (count : Number)
  /-- The pattern is not whole elements. -/
  | raggedPattern (length : Nat)
  /-- An element would be read from beyond the end of the pattern. -/
  | outside
  deriving DecidableEq, Repr

def FillError.message : FillError → String
  | .badCount count => "Invalid typed array length: " ++ count.text
  | .raggedPattern length =>
    "Fill pattern length " ++ Text.decimal length ++ " is not a multiple of " ++
      Text.decimal elementSize
  | .outside => "Offset is outside the bounds of the DataView"

/-- How many steps count up to a number from 0, the number itself not counted. -/
def stepCount : Number → Nat
  | .integer n => n.toNat
  | .fraction n k => (Int.fdiv n (2 ^ k) + 1).toNat
  | .infinite _ | .nan => 0

/-- Some of the bytes of a buffer. -/
structure View where
  buffer : List UInt8
  start : Nat
  length : Nat
  inside : start + length ≤ buffer.length

namespace View

/-- All bytes of a buffer. -/
def whole (bytes : List UInt8) : View := ⟨bytes, 0, bytes.length, Nat.le_of_eq (Nat.zero_add _)⟩

/-- The byte of the buffer at a place of the view. As far as the view goes, the buffer has one. -/
def byte (v : View) (place : Nat) : UInt8 := v.buffer.getD (v.start + place) 0

/-- The element spelled by the four bytes at an offset. -/
def read (v : View) (offset : Nat) : Except FillError Element :=
  if offset + elementSize ≤ v.length then .ok (.spelled v.byte offset) else .error .outside

end View

namespace Memory

/-- The number of elements that a count asks for: its integer part, if memory can have so many. -/
def elementCount? (m : Memory) (count : Number) : Option Nat :=
  match count with
  | .nan => some 0
  | _ => do
    let n ← count.truncate?
    if 0 ≤ n ∧ n ≤ m.maxElements then some n.toNat else none

/-- An element as memory keeps it. -/
def keep (m : Memory) (e : Element) : Element := if e.isNaN then m.keepNaN e else e

def step (m : Memory) (v : View) (index : Nat) : Except FillError Element :=
  if v.length = 0 then .ok (Element.ofNat (pseudoRandom index).toNat)
  else (v.read (index % (v.length / elementSize) * elementSize)).map m.keep

/-- Fills memory from pattern bytes. A step beyond the last element leaves memory as it is. -/
def fill (m : Memory) (v : View) (count : Number) : Except FillError (List Element) :=
  match m.elementCount? count with
  | none => .error (.badCount count)
  | some n =>
    if v.length % elementSize ≠ 0 then .error (.raggedPattern v.length)
    else do
      let written ← (List.range (stepCount count)).mapM (m.step v)
      return written.take n

/-- A machine that can hold 2 ^ 32 elements and keeps all of them as they are. -/
def usual : Memory := ⟨4294967296, id, fun _ h => h⟩

end Memory

def fill (pattern : List UInt8) (count : Number) : Except FillError (List Element) :=
  Memory.usual.fill (.whole pattern) count

end BenchSettings
