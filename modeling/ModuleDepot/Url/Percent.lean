import ModuleDepot.Bytes.Utf8
import ModuleDepot.Text.Digits

/-!
Percent-encoding: a byte as `%` and two upper-case hexadecimal digits. Each part
of an address has its own set of characters that must be written so; control
characters and everything outside ASCII are in all of them.
-/

namespace ModuleDepot.Url

abbrev EncodeSet := Char → Bool

def isControlOrForeign (c : Char) : Bool := c.toNat < 0x20 || 0x7f ≤ c.toNat

def fragmentSet : EncodeSet := fun c =>
  isControlOrForeign c || c == ' ' || c == '"' || c == '<' || c == '>' || c == '\x60'

def pathSet : EncodeSet := fun c =>
  fragmentSet c || c == '#' || c == '?' || c == '\x7b' || c == '\x7d'

def userSet : EncodeSet := fun c =>
  pathSet c || c == '/' || c == ':' || c == ';' || c == '=' || c == '@' || c == '[' ||
    c == '\\' || c == ']' || c == '^' || c == '|'

def querySet : EncodeSet := fun c =>
  isControlOrForeign c || c == ' ' || c == '"' || c == '#' || c == '<' || c == '>' ||
    c == '\x27'

def encodeByte (b : UInt8) : List Char :=
  ['%', (Nat.digitChar (b.toNat / 16)).toUpper, (Nat.digitChar (b.toNat % 16)).toUpper]

def encodeChar (c : Char) : List Char :=
  ((String.singleton c).toUTF8.toList).flatMap encodeByte

def encode (set : EncodeSet) (text : List Char) : List Char :=
  text.flatMap fun c => if set c then encodeChar c else [c]

/-- The bytes of a text, where `%` with two hexadecimal digits stands for one byte. -/
def decodeBytes : List Char → List UInt8
  | '%' :: a :: b :: rest =>
      match Text.hexDigit? a, Text.hexDigit? b with
      | some high, some low => UInt8.ofNat (16 * high + low) :: decodeBytes rest
      | _, _ => '%'.toNat.toUInt8 :: decodeBytes (a :: b :: rest)
  | c :: rest => (String.singleton c).toUTF8.toList ++ decodeBytes rest
  | [] => []

def decode? (text : List Char) : Option (List Char) :=
  (String.fromUTF8? ⟨(decodeBytes text).toArray⟩).map String.toList

end ModuleDepot.Url
