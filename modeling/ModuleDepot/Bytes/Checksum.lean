/-!
The cyclic redundancy check of 32 bits that archives keep for their entries: the
reflected polynomial 0xEDB88320, with all bits inverted before and after.
-/

namespace ModuleDepot.Bytes

def checksumBit (rest : UInt32) : UInt32 :=
  if rest &&& 1 = 1 then (rest >>> 1) ^^^ 0xedb88320 else rest >>> 1

/-- The remainder after eight more bits. -/
def checksumByte (rest : UInt32) (b : UInt8) : UInt32 :=
  Nat.repeat checksumBit 8 (rest ^^^ b.toUInt32)

def checksum (data : ByteArray) : UInt32 :=
  (data.foldl checksumByte 0xffffffff) ^^^ 0xffffffff

end ModuleDepot.Bytes
