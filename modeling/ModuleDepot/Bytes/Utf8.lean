/-!
Reading bytes as UTF-8 when some of them may not be: each longest run of bytes
that begins a character without finishing it becomes one replacement character.
-/

namespace ModuleDepot.Bytes

def replacement : Char := '\ufffd'

def isContinuation (b : UInt8) : Bool := 0x80 ≤ b && b ≤ 0xbf

/-- Whether `second` may follow `first`, so that the character is neither overlong, nor a
surrogate, nor beyond the last scalar value. -/
def mayFollow (first second : UInt8) : Bool :=
  if first = 0xe0 then 0xa0 ≤ second && second ≤ 0xbf
  else if first = 0xed then 0x80 ≤ second && second ≤ 0x9f
  else if first = 0xf0 then 0x90 ≤ second && second ≤ 0xbf
  else if first = 0xf4 then 0x80 ≤ second && second ≤ 0x8f
  else isContinuation second

def payload (b : UInt8) : Nat := b.toNat % 64

/-- Reads bytes as characters, replacing what is none. -/
def decodeLossy : List UInt8 → List Char
  | [] => []
  | a :: rest =>
      if a < 0x80 then Char.ofNat a.toNat :: decodeLossy rest
      else if 0xc2 ≤ a && a ≤ 0xdf then
        match rest with
        | b :: rest' =>
            if isContinuation b then
              Char.ofNat (a.toNat % 32 * 64 + payload b) :: decodeLossy rest'
            else replacement :: decodeLossy (b :: rest')
        | [] => [replacement]
      else if 0xe0 ≤ a && a ≤ 0xef then
        match rest with
        | b :: c :: rest' =>
            if !mayFollow a b then replacement :: decodeLossy (b :: c :: rest')
            else if isContinuation c then
              Char.ofNat ((a.toNat % 16 * 64 + payload b) * 64 + payload c) :: decodeLossy rest'
            else replacement :: decodeLossy (c :: rest')
        | [b] => if mayFollow a b then [replacement] else replacement :: decodeLossy [b]
        | [] => [replacement]
      else if 0xf0 ≤ a && a ≤ 0xf4 then
        match rest with
        | b :: c :: d :: rest' =>
            if !mayFollow a b then replacement :: decodeLossy (b :: c :: d :: rest')
            else if !isContinuation c then replacement :: decodeLossy (c :: d :: rest')
            else if isContinuation d then
              Char.ofNat (((a.toNat % 8 * 64 + payload b) * 64 + payload c) * 64 + payload d)
                :: decodeLossy rest'
            else replacement :: decodeLossy (d :: rest')
        | [b, c] =>
            if !mayFollow a b then replacement :: decodeLossy [b, c]
            else if isContinuation c then [replacement]
            else replacement :: decodeLossy [c]
        | [b] => if mayFollow a b then [replacement] else replacement :: decodeLossy [b]
        | [] => [replacement]
      else replacement :: decodeLossy rest
termination_by bytes => bytes.length

def lossyText (data : ByteArray) : String := String.ofList (decodeLossy data.toList)

end ModuleDepot.Bytes
