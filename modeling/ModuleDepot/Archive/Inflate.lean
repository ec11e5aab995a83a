import ModuleDepot.Bytes.Word

/-!
Unpacking of deflated data: blocks of stored bytes, or of symbols in a prefix
code. A symbol is a byte, the end of the block, or a copy of earlier output.

Every step takes at least one bit, so the number of bits bounds all loops.
-/

namespace ModuleDepot.Archive.Inflate

/-- The bits of a byte array from bit `pos` on, lowest bit of each byte first. -/
structure Bits where
  data : ByteArray
  pos : Nat

abbrev Decoder := StateT Bits Option

def bit : Decoder Nat := do
  let bits ← get
  let b ← Bytes.byte? bits.data (bits.pos / 8)
  set { bits with pos := bits.pos + 1 }
  return (b >>> (bits.pos % 8)) % 2

/-- The next `count` bits as a number, lowest bit first. -/
def number : Nat → Decoder Nat
  | 0 => return 0
  | count + 1 => do
      let low ← bit
      let high ← number count
      return low + 2 * high

/-- A canonical prefix code: how many codewords there are of each length from 1 on, and the
symbols in the order of their codewords. -/
structure Code where
  counts : List Nat
  symbols : Array Nat

def longest : Nat := 15

/-- How many codewords of the last length are still free when the counts are taken from
`free` codewords of length zero, unless some length has too few. -/
def freeAfter : List Nat → Nat → Option Nat
  | [], free => some free
  | count :: rest, free =>
      if 2 * free < count then none else freeAfter rest (2 * free - count)

/-- The code with the given codeword lengths. More codewords than there is room for are
refused, and so is unused room, unless there is at most one codeword. -/
def Code.ofLengths? (lengths : List Nat) : Option Code := do
  let counts := (List.range longest).map fun i => lengths.count (i + 1)
  let symbols := (List.range longest).flatMap fun i =>
    (lengths.zipIdx.filter fun entry => entry.1 == i + 1).map Prod.snd
  let free ← freeAfter counts 1
  if 0 < free && 1 < symbols.length then none
  return ⟨counts, symbols.toArray⟩

/-- The next symbol: `code` is what was read so far beyond `first`, the first codeword of
this length, and `index` counts the symbols with shorter codewords. -/
def symbolFrom (symbols : Array Nat) : List Nat → Nat → Nat → Nat → Decoder Nat
  | [], _, _, _ => failure
  | count :: rest, code, first, index => do
      let code := 2 * code + (← bit)
      let first := 2 * first
      if code < first + count then
        match symbols[index + (code - first)]? with
        | some symbol => return symbol
        | none => failure
      else symbolFrom symbols rest code (first + count) (index + count)

def symbol (code : Code) : Decoder Nat := symbolFrom code.symbols code.counts 0 0 0

/-- Base and number of extra bits of the copy lengths, from symbol 257 on. -/
def lengthTable : List (Nat × Nat) :=
  [(3, 0), (4, 0), (5, 0), (6, 0), (7, 0), (8, 0), (9, 0), (10, 0), (11, 1), (13, 1), (15, 1),
   (17, 1), (19, 2), (23, 2), (27, 2), (31, 2), (35, 3), (43, 3), (51, 3), (59, 3), (67, 4),
   (83, 4), (99, 4), (115, 4), (131, 5), (163, 5), (195, 5), (227, 5), (258, 0)]

def distanceTable : List (Nat × Nat) :=
  [(1, 0), (2, 0), (3, 0), (4, 0), (5, 1), (7, 1), (9, 2), (13, 2), (17, 3), (25, 3), (33, 4),
   (49, 4), (65, 5), (97, 5), (129, 6), (193, 6), (257, 7), (385, 7), (513, 8), (769, 8),
   (1025, 9), (1537, 9), (2049, 10), (3073, 10), (4097, 11), (6145, 11), (8193, 12),
   (12289, 12), (16385, 13), (24577, 13)]

/-- A number given by the entry of a table and its extra bits. -/
def tabled (table : List (Nat × Nat)) (i : Nat) : Decoder Nat := do
  match table[i]? with
  | some (base, extra) => return base + (← number extra)
  | none => failure

/-- Copies `count` bytes from `distance` before the end to the end, one by one, so that a
copy may overlap its own source. -/
def copyBack (distance : Nat) : Nat → ByteArray → ByteArray
  | 0, out => out
  | count + 1, out =>
      copyBack distance count
        (out.push (UInt8.ofNat ((Bytes.byte? out (out.size - distance)).getD 0)))

def symbols (literals distances : Code) : Nat → ByteArray → Decoder ByteArray
  | 0, _ => failure
  | fuel + 1, out => do
      let s ← symbol literals
      if s < 256 then symbols literals distances fuel (out.push (UInt8.ofNat s))
      else if s = 256 then return out
      else
        let count ← tabled lengthTable (s - 257)
        let distance ← tabled distanceTable (← symbol distances)
        if out.size < distance then failure
        symbols literals distances fuel (copyBack distance count out)

/-- A block of stored bytes, which begins at a byte boundary with its length and the
complement of its length. -/
def stored (out : ByteArray) : Decoder ByteArray := do
  let bits ← get
  let start := (bits.pos + 7) / 8
  let size ← Bytes.word16? bits.data start
  let check ← Bytes.word16? bits.data (start + 2)
  if size + check ≠ 65535 then failure
  let bytes ← Bytes.slice? bits.data (start + 4) size
  set { bits with pos := 8 * (start + 4 + size) }
  return out ++ bytes

def fixedLengths : List Nat :=
  List.replicate 144 8 ++ List.replicate 112 9 ++ List.replicate 24 7 ++ List.replicate 8 8

/-- The order in which the lengths of the code of codeword lengths are given. -/
def lengthOrder : List Nat :=
  [16, 17, 18, 0, 8, 7, 9, 6, 10, 5, 11, 4, 12, 3, 13, 2, 14, 1, 15]

/-- Codeword lengths until there are `total` of them, latest first: a length, or a
repetition of the last one, or a run of zeros. -/
def lengthsUpTo (code : Code) (total : Nat) : Nat → List Nat → Decoder (List Nat)
  | 0, _ => failure
  | fuel + 1, soFar => do
      if total < soFar.length then failure
      else if soFar.length = total then return soFar
      else
        let s ← symbol code
        if s < 16 then lengthsUpTo code total fuel (s :: soFar)
        else if s = 16 then
          match soFar with
          | [] => failure
          | last :: _ =>
              let count := 3 + (← number 2)
              lengthsUpTo code total fuel (List.replicate count last ++ soFar)
        else
          let count ← if s = 17 then (3 + ·) <$> number 3 else (11 + ·) <$> number 7
          lengthsUpTo code total fuel (List.replicate count 0 ++ soFar)

def codes : Decoder (Code × Code) := do
  let literalCount := 257 + (← number 5)
  let distanceCount := 1 + (← number 5)
  let given := 4 + (← number 4)
  if 286 < literalCount || 30 < distanceCount then failure
  let lengths ← (List.range given).mapM fun _ => number 3
  let placed := (List.range 19).map fun s =>
    (((lengthOrder.take given).zip lengths).lookup s).getD 0
  let code ← Code.ofLengths? placed
  let total := literalCount + distanceCount
  let all := (← lengthsUpTo code total (total + 1) []).reverse
  let literals ← Code.ofLengths? (all.take literalCount)
  let distances ← Code.ofLengths? (all.drop literalCount)
  return (literals, distances)

def blocks (bound : Nat) : Nat → ByteArray → Decoder ByteArray
  | 0, _ => failure
  | fuel + 1, out => do
      let last ← bit
      let kind ← number 2
      let out ←
        if kind = 0 then stored out
        else if kind = 1 then do
          let literals ← Code.ofLengths? fixedLengths
          let distances ← Code.ofLengths? (List.replicate 32 5)
          symbols literals distances bound out
        else if kind = 2 then do
          let (literals, distances) ← codes
          symbols literals distances bound out
        else failure
      if last = 1 then return out else blocks bound fuel out

/-- Unpacks deflated data. What follows the last block is ignored. -/
def unpack? (data : ByteArray) : Option ByteArray :=
  let bound := 8 * data.size + 1
  ((blocks bound bound ByteArray.empty).run ⟨data, 0⟩).map Prod.fst

end ModuleDepot.Archive.Inflate
