import ModuleDepot.Toml.Quoted
import ModuleDepot.Toml.Scalar
import ModuleDepot.Toml.Table

/-!
Reading settings files. A file is a list of statements, one in each line: entries,
and headers of tables and of tables in a series. Values may be arrays, which may go
over several lines, and tables within a line.
-/

namespace ModuleDepot.Toml

open Json (Value)

/-- How deep values may nest, and how many parts a dotted key may have, each plus one. -/
def nestingLimit : Nat := 80

/-! ## Space -/

/-- What follows the rest of a line that may only hold a comment. -/
def afterComment? (text : List Char) : Option (List Char) :=
  match text with
  | '#' :: rest =>
      match rest.dropWhile isPlain with
      | [] => some []
      | rest => afterLineEnd? rest
  | [] => some []
  | text => afterLineEnd? text

/-- What follows the rest of a line that may only hold gaps and a comment. -/
def closeLine? (text : List Char) : Option (List Char) := afterComment? (skipGap text)

/-- The text after gaps, comments and line ends. -/
def skipLines : Nat → List Char → List Char
  | 0, text => text
  | fuel + 1, text =>
      let text := skipGap text
      if text.isEmpty then []
      else
        match afterComment? text with
        | some rest => skipLines fuel rest
        | none => text

/-! ## Keys -/

def isKeyChar (c : Char) : Bool := c.isAlphanum || c == '_' || c == '-'

def readKeyPart? : List Char → Option (String × List Char)
  | '"' :: rest => (readBasic rest).map fun (key, rest) => (String.ofList key, rest)
  | '\x27' :: rest => (readLiteral rest).map fun (key, rest) => (String.ofList key, rest)
  | text =>
      match text.takeWhile isKeyChar with
      | [] => none
      | key => some (String.ofList key, text.dropWhile isKeyChar)

/-- The parts of a dotted key, and what follows it and its gaps. -/
def readKeyParts? : Nat → List Char → Option (List String × List Char)
  | 0, _ => none
  | fuel + 1, text => do
      let (part, rest) ← readKeyPart? (skipGap text)
      match skipGap rest with
      | '.' :: rest =>
          let (parts, rest) ← readKeyParts? fuel rest
          return (part :: parts, rest)
      | rest => return ([part], rest)

/-- A dotted key as the way to its last part and that part, and what follows it. -/
def readKey? (text : List Char) : Option ((List String × String) × List Char) := do
  let (parts, rest) ← readKeyParts? (text.length + 1) text
  if nestingLimit ≤ parts.length then none
  return ((parts.dropLast, ← parts.getLast?), rest)

/-! ## Values -/

def isWordChar (c : Char) : Bool :=
  c.isAlphanum || c == '_' || c == '+' || c == '-' || c == '.' || c == ':'

/-- A value that is one word, and what follows it. A space may stand between a date and a
time. -/
def readWord? (text : List Char) : Option (Value × List Char) :=
  let word := text.takeWhile isWordChar
  let rest := text.dropWhile isWordChar
  let alone := (ofWord? word).map fun v => (v, rest)
  match rest with
  | ' ' :: next =>
      let time := next.takeWhile isWordChar
      if isDate word && isTime true time then
        some (momentValue (word ++ 'T' :: time), next.dropWhile isWordChar)
      else alone
  | _ => alone

mutual

/-- A value and what follows it, with at most `room` containers in one another. The fuel is
more than twice the length of the text. -/
def readValue? : Nat → Nat → List Char → Option (Value × List Char)
  | 0, _, _ => none
  | fuel + 1, room, text =>
      match text, room with
      | '[' :: _, 0 => none
      | '\x7b' :: _, 0 => none
      | '[' :: rest, room + 1 => do
          let (items, rest) ← readItems? fuel room rest
          return (.array items, rest)
      | '\x7b' :: rest, room + 1 =>
          match skipGap rest with
          | '\x7d' :: rest => some (.object [], rest)
          | rest => do
              let (entries, rest) ← readPairs? fuel room [] rest
              return (.object (entriesToMembers entries), rest)
      | text, _ =>
          match readQuoted? text with
          | some (chars, rest) => some (.string (String.ofList chars), rest)
          | none => readWord? text

/-- The items of an array up to its closing bracket. A comma may follow the last. -/
def readItems? : Nat → Nat → List Char → Option (List Value × List Char)
  | 0, _, _ => none
  | fuel + 1, room, text =>
      match skipLines fuel text with
      | ']' :: rest => some ([], rest)
      | text => do
          let (item, rest) ← readValue? fuel room text
          match skipLines fuel rest with
          | ',' :: rest =>
              let (items, rest) ← readItems? fuel room rest
              return (item :: items, rest)
          | ']' :: rest => return ([item], rest)
          | _ => none

def readPairs? : Nat → Nat → Entries → List Char → Option (Entries × List Char)
  | 0, _, _, _ => none
  | fuel + 1, room, entries, text => do
      let ((path, key), rest) ← readKey? text
      match rest with
      | '=' :: rest =>
          let (v, rest) ← readValue? fuel room (skipGap rest)
          let entries ← entries.assign path key v
          match skipGap rest with
          | ',' :: rest => readPairs? fuel room entries rest
          | '\x7d' :: rest => return (entries, rest)
          | _ => none
      | _ => none

end

/-! ## Statements -/

inductive Statement where
  | entry (path : List String) (key : String) (v : Value)
  | table (path : List String) (key : String)
  | next (path : List String) (key : String)

def readStatement? (text : List Char) : Option (Statement × List Char) :=
  match text with
  | '[' :: '[' :: rest => do
      let ((path, key), rest) ← readKey? rest
      match rest with
      | ']' :: ']' :: rest => return (.next path key, ← closeLine? rest)
      | _ => none
  | '[' :: rest => do
      let ((path, key), rest) ← readKey? rest
      match rest with
      | ']' :: rest => return (.table path key, ← closeLine? rest)
      | _ => none
  | text => do
      let ((path, key), rest) ← readKey? text
      match rest with
      | '=' :: rest =>
          let (v, rest) ← readValue? (2 * rest.length + 2) (nestingLimit - 1) (skipGap rest)
          return (.entry path key v, ← closeLine? rest)
      | _ => none

def readStatements? : Nat → List Char → Option (List Statement)
  | 0, _ => none
  | fuel + 1, text =>
      match skipLines (fuel + 1) text with
      | [] => some []
      | text => do
          let (statement, rest) ← readStatement? text
          return statement :: (← readStatements? fuel rest)

/-- A file as far as it was read: its entries, and the header that the next entry belongs
under. -/
structure Draft where
  entries : Entries
  header : List String

def Draft.add (draft : Draft) : Statement → Option Draft
  | .entry path key v => do
      return { draft with entries := ← draft.entries.assignBelow draft.header path key v }
  | .table path key => do return ⟨← draft.entries.openTable path key, path ++ [key]⟩
  | .next path key => do return ⟨← draft.entries.openNext path key, path ++ [key]⟩

def read? (text : String) : Option Value := do
  let chars := match text.toList with
    | '\ufeff' :: rest => rest
    | chars => chars
  let statements ← readStatements? (chars.length + 1) chars
  let draft ← statements.foldlM Draft.add ⟨[], []⟩
  return .object (entriesToMembers draft.entries)

end ModuleDepot.Toml
