import ModuleDepot.Settings.Layer
import ModuleDepot.Text.Blank
import ModuleDepot.Text.Split
import ModuleDepot.Toml.Quoted
import ModuleDepot.Toml.Scalar
import ModuleDepot.Width

/-!
Settings in variables. What a variable's name holds after a common head is the way to
a setting, where two underscores, or a point, lead into a table. Its value is read as
a truth value, a number, a quoted text, an array in brackets or a table in braces;
whatever is nothing of that throughout is a text as it stands.
-/

namespace ModuleDepot.Settings

open Json (Value)

/-! ## Values -/

def isSpace (c : Char) : Bool :=
  c == ' ' || c == '\t' || c == '\n' || c == '\x0c' || c == '\r'

def skipSpace (text : List Char) : List Char := text.dropWhile isSpace

def endsWord (c : Char) : Bool := ",[]\x7b\x7d".toList.contains c

def areDigits (text : List Char) : Bool := !text.isEmpty && text.all Char.isDigit

/-- Whether a text is a decimal number with a point, with digits on one side of it at least. -/
def isDecimal (text : List Char) : Bool :=
  let text := (Toml.splitSign text).2
  let mantissa := text.takeWhile fun c => c ≠ 'e' && c ≠ 'E'
  let power := text.drop mantissa.length
  let powerStands := match power with
    | [] => true
    | _ :: power => areDigits (Toml.splitSign power).2
  powerStands && match Text.cutFirst '.' mantissa with
    | some (whole, places) => areDigits (whole ++ places)
    | none => false

/-- The integer that a word stands for, if it fits into 64 bits, with a sign only if it is
negative. -/
def integer? (word : List Char) : Option Int :=
  let (sign, digits) := Toml.splitSign word
  let size := Text.decimalValue digits
  if !areDigits digits then none
  else if sign = some '-' then if size ≤ Width.count63 then some (-size) else none
  else if size < Width.count64 then some size
  else none

def ofWord (word : List Char) : Value :=
  let word := Text.trim word
  if isDecimal word then Toml.someFraction
  else
    match integer? word with
    | some i => .int i
    | none => .string (String.ofList word)

def isNameChar (c : Char) : Bool := c.isAlphanum || c == '_' || c == '-'

def readName? : List Char → Option (String × List Char)
  | '"' :: rest => (Toml.readBasic rest).map fun (name, rest) => (String.ofList name, rest)
  | text =>
      match text.takeWhile isNameChar with
      | [] => none
      | name => some (String.ofList name, text.dropWhile isNameChar)

mutual

/-- A value with the space around it, and what follows. The fuel is more than twice the
length of the text. -/
def readValue? : Nat → List Char → Option (Value × List Char)
  | 0, _ => none
  | fuel + 1, text => do
      let (v, rest) ← match skipSpace text with
        | 't' :: 'r' :: 'u' :: 'e' :: rest => some (.bool true, rest)
        | 'f' :: 'a' :: 'l' :: 's' :: 'e' :: rest => some (.bool false, rest)
        | '\x7b' :: rest => do
            let (members, rest) ← readMembers? fuel [] rest
            return (.object members, rest)
        | '[' :: rest => do
            let (items, rest) ← readItems? fuel rest
            return (.array items, rest)
        | '"' :: rest =>
            (Toml.readBasic rest).map fun (s, rest) => (.string (String.ofList s), rest)
        | '\x27' :: rest =>
            match rest with
            | c :: '\x27' :: rest => some (.string (String.singleton c), rest)
            | _ => none
        | text =>
            some (ofWord (text.takeWhile (!endsWord ·)), text.dropWhile (!endsWord ·))
      return (v, skipSpace rest)

/-- The items of an array up to its closing bracket. A comma may follow the last. -/
def readItems? : Nat → List Char → Option (List Value × List Char)
  | 0, _ => none
  | fuel + 1, text =>
      match text with
      | ']' :: rest => some ([], rest)
      | text => do
          let (item, rest) ← readValue? fuel text
          match rest with
          | ',' :: rest =>
              let (items, rest) ← readItems? fuel rest
              return (item :: items, rest)
          | ']' :: rest => return ([item], rest)
          | _ => none

/-- The members of a table up to its closing brace. A comma may follow the last. -/
def readMembers? : Nat → List (Option String × Value) → List Char →
    Option (List (Option String × Value) × List Char)
  | 0, _, _ => none
  | fuel + 1, members, text =>
      match text with
      | '\x7d' :: rest => some (members, rest)
      | text => do
          let (name, rest) ← readName? (skipSpace text)
          match skipSpace rest with
          | '=' :: rest =>
              let (v, rest) ← readValue? fuel rest
              let members := putMember (some name) v members
              match rest with
              | ',' :: rest => readMembers? fuel members rest
              | '\x7d' :: rest => return (members, rest)
              | _ => none
          | _ => none

end

def valueOf (text : String) : Value :=
  let chars := text.toList
  match readValue? (2 * chars.length + 2) chars with
  | some (v, []) => v
  | _ => .string text

/-! ## Names -/

/-- The way to a setting that a variable's name tells after `head`, without regard to case. -/
def wayOf? (head name : String) : Option (List String) := do
  let lower (s : String) : List Char := s.toList.map Char.toLower
  let rest ← (lower head).isPrefixOf? (lower name)
  let way := Text.trim (Text.replaceAll ['_', '_'] ['.'] rest)
  if way.isEmpty then none
  return (way.splitOn '.').map String.ofList

/-- The settings in variables; where two of them meet, the later one counts. A variable that
names no setting has to bring a whole table. -/
def layerOf? (head : String) (environment : List (String × String)) : Option Value :=
  environment.foldlM (fun lower (name, text) =>
    match wayOf? head name with
    | none => some lower
    | some way =>
        match nest (valueOf text) way with
        | .object members => some (overlay lower (.object members))
        | _ => none) (.object [])

end ModuleDepot.Settings
