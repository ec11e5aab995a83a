import ModuleDepot.Width

/-!
Little-endian words in byte arrays. Reading past the end yields nothing.
-/

namespace ModuleDepot.Bytes

def byte? (data : ByteArray) (pos : Nat) : Option Nat :=
  if h : pos < data.size then some (data.get pos h).toNat else none

def word16? (data : ByteArray) (pos : Nat) : Option Nat := do
  let low ← byte? data pos
  let high ← byte? data (pos + 1)
  return low + 256 * high

def word32? (data : ByteArray) (pos : Nat) : Option Nat := do
  let low ← word16? data pos
  let high ← word16? data (pos + 2)
  return low + Width.count16 * high

def word64? (data : ByteArray) (pos : Nat) : Option Nat := do
  let low ← word32? data pos
  let high ← word32? data (pos + 4)
  return low + Width.count32 * high

/-- The `count` bytes at `pos`, if they are all there. -/
def slice? (data : ByteArray) (pos count : Nat) : Option ByteArray :=
  if pos + count ≤ data.size then some (data.extract pos (pos + count)) else none

/-- The last `count` bytes of a number, lowest first. -/
def littleEndian : Nat → Nat → List UInt8
  | 0, _ => []
  | count + 1, n => UInt8.ofNat (n % 256) :: littleEndian count (n / 256)

/-- A sequence of numbers, each with its width in bytes. -/
def fields (words : List (Nat × Nat)) : ByteArray :=
  ⟨(words.flatMap fun (width, n) => littleEndian width n).toArray⟩

end ModuleDepot.Bytes
