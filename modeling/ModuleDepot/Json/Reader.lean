import ModuleDepot.Json.Value
import ModuleDepot.Text.Digits

/-!
Reading JSON text. The reader never fails: where the text stops being JSON the
tree ends in `malformed`, and nothing after that place is read.
-/

namespace ModuleDepot.Json

def isSpace (c : Char) : Bool := c == ' ' || c == '\n' || c == '\t' || c == '\r'

def skipSpace (text : List Char) : List Char := text.dropWhile isSpace

/-! ## Strings -/

/-- A piece of a string: a character, or a 16 bit unit given by its number. -/
inductive Piece where
  | char (c : Char)
  | unit (n : Nat)

def shortEscape? : Char → Option Char
  | '"' => some '"'
  | '\\' => some '\\'
  | '/' => some '/'
  | 'b' => some '\x08'
  | 'f' => some '\x0c'
  | 'n' => some '\n'
  | 'r' => some '\r'
  | 't' => some '\t'
  | _ => none

/-- The pieces up to the closing quote, and the text after it. -/
def readPieces : List Char → Option (List Piece × List Char)
  | [] => none
  | '"' :: rest => some ([], rest)
  | '\\' :: 'u' :: a :: b :: c :: d :: rest => do
      let n ← Text.numberIn? 16 [a, b, c, d]
      let (pieces, rest) ← readPieces rest
      return (.unit n :: pieces, rest)
  | '\\' :: letter :: rest => do
      let c ← shortEscape? letter
      let (pieces, rest) ← readPieces rest
      return (.char c :: pieces, rest)
  | c :: rest =>
      if c.toNat < 0x20 || c == '\\' then none
      else do
        let (pieces, rest) ← readPieces rest
        return (.char c :: pieces, rest)

/-- Joins pieces to a text. A unit from the upper half of a pair needs one from the lower
half right after it, and that one needs the first. -/
def joinPieces : List Piece → Option (List Char)
  | [] => some []
  | .char c :: rest => (joinPieces rest).map (c :: ·)
  | .unit high :: .unit low :: rest =>
      if 0xd800 ≤ high && high < 0xdc00 then
        if 0xdc00 ≤ low && low < 0xe000 then
          (joinPieces rest).map
            (Char.ofNat (0x10000 + (high - 0xd800) * 0x400 + (low - 0xdc00)) :: ·)
        else none
      else if 0xdc00 ≤ high && high < 0xe000 then none
      else (joinPieces (.unit low :: rest)).map (Char.ofNat high :: ·)
  | .unit n :: rest =>
      if 0xd800 ≤ n && n < 0xe000 then none
      else (joinPieces rest).map (Char.ofNat n :: ·)

/-! ## Numbers -/

/-- The digits of the integer part: one zero, or digits that do not begin with one. -/
def readWhole : List Char → Option (List Char × List Char)
  | '0' :: rest => some (['0'], rest)
  | text =>
      match text.takeWhile Char.isDigit with
      | [] => none
      | digits => some (digits, text.dropWhile Char.isDigit)

def readFraction : List Char → Option (List Char × List Char)
  | '.' :: rest =>
      match rest.takeWhile Char.isDigit with
      | [] => none
      | digits => some (digits, rest.dropWhile Char.isDigit)
  | text => some ([], text)

def readExponent : List Char → Option (Option Int × List Char)
  | [] => some (none, [])
  | c :: rest =>
      if c == 'e' || c == 'E' then
        let (negative, rest) := match rest with
          | '-' :: rest => (true, rest)
          | '+' :: rest => (false, rest)
          | rest => (false, rest)
        match rest.takeWhile Char.isDigit with
        | [] => none
        | digits =>
            let size : Int := Text.decimalValue digits
            some (some (if negative then -size else size), rest.dropWhile Char.isDigit)
      else some (none, c :: rest)

def readNumber (text : List Char) : Option (Number × List Char) := do
  let (negative, text) := match text with
    | '-' :: rest => (true, rest)
    | text => (false, text)
  let (whole, text) ← readWhole text
  let (fraction, text) ← readFraction text
  let (exponent, text) ← readExponent text
  return ({
    negative
    digits := Text.decimalValue (whole ++ fraction)
    scale := exponent.getD 0 - fraction.length
    whole := fraction.isEmpty && exponent.isNone }, text)

/-! ## Values -/

mutual

/-- One value and the text after it. The fuel is more than the length of the text. -/
def readValue : Nat → List Char → Value × List Char
  | 0, _ => (.malformed, [])
  | fuel + 1, text =>
      match skipSpace text with
      | 'n' :: 'u' :: 'l' :: 'l' :: rest => (.null, rest)
      | 't' :: 'r' :: 'u' :: 'e' :: rest => (.bool true, rest)
      | 'f' :: 'a' :: 'l' :: 's' :: 'e' :: rest => (.bool false, rest)
      | '"' :: rest =>
          match readPieces rest with
          | none => (.malformed, [])
          | some (pieces, rest) =>
              match joinPieces pieces with
              | none => (.brokenString, rest)
              | some chars => (.string (String.ofList chars), rest)
      | '[' :: rest =>
          match skipSpace rest with
          | ']' :: rest => (.array [], rest)
          | _ =>
              let (items, rest) := readItems fuel rest
              (.array items, rest)
      | '\x7b' :: rest =>
          match skipSpace rest with
          | '\x7d' :: rest => (.object [], rest)
          | _ =>
              let (members, rest) := readMembers fuel rest
              (.object members, rest)
      | text =>
          match readNumber text with
          | none => (.malformed, [])
          | some (n, rest) => (.number n, rest)

def readItems : Nat → List Char → List Value × List Char
  | 0, _ => ([.malformed], [])
  | fuel + 1, text =>
      let (item, rest) := readValue fuel text
      match skipSpace rest with
      | ',' :: rest =>
          let (items, rest) := readItems fuel rest
          (item :: items, rest)
      | ']' :: rest => ([item], rest)
      | _ => ([item, .malformed], [])

def readMembers : Nat → List Char → List (Option String × Value) × List Char
  | 0, _ => ([(none, .malformed)], [])
  | fuel + 1, text =>
      match skipSpace text with
      | '"' :: rest =>
          match readPieces rest with
          | none => ([(none, .malformed)], [])
          | some (pieces, rest) =>
              let name := (joinPieces pieces).map String.ofList
              match skipSpace rest with
              | ':' :: rest =>
                  let (value, rest) := readValue fuel rest
                  match skipSpace rest with
                  | ',' :: rest =>
                      let (members, rest) := readMembers fuel rest
                      ((name, value) :: members, rest)
                  | '\x7d' :: rest => ([(name, value)], rest)
                  | _ => ([(name, value), (none, .malformed)], [])
              | _ => ([(name, .malformed)], [])
      | _ => ([(none, .malformed)], [])

end

/-- Reads a document, and tells whether only space follows it. -/
def read (text : String) : Value × Bool :=
  let chars := text.toList
  let (value, rest) := readValue (chars.length + 1) chars
  (value, (skipSpace rest).isEmpty)

def nestingLimit : Nat := 127

/-- Reads a document that can be kept as data. -/
def readStorable? (text : String) : Option Value :=
  let (value, ended) := read text
  if ended && value.isStorable nestingLimit then some value else none

end ModuleDepot.Json
