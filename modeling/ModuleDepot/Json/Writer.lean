import ModuleDepot.Json.Value

/-!
Writing JSON in its shortest form: no space between tokens, names in the order
of the tree, and only quotes, backslashes and control characters escaped.
-/

namespace ModuleDepot.Json

def hexByte (n : Nat) : List Char :=
  [Nat.digitChar (n / 16 % 16), Nat.digitChar (n % 16)]

def writeChar (c : Char) : List Char :=
  if c = '"' then ['\\', '"']
  else if c = '\\' then ['\\', '\\']
  else if c = '\n' then ['\\', 'n']
  else if c = '\r' then ['\\', 'r']
  else if c = '\t' then ['\\', 't']
  else if c = '\x08' then ['\\', 'b']
  else if c = '\x0c' then ['\\', 'f']
  else if c.toNat < 0x20 then ['\\', 'u', '0', '0'] ++ hexByte c.toNat
  else [c]

def writeString (text : String) : String :=
  String.ofList ('"' :: text.toList.flatMap writeChar ++ ['"'])

def writeNumber (n : Number) : String :=
  (if n.negative then "-" else "") ++ toString n.digits ++
    (if n.scale = 0 then "" else "e" ++ toString n.scale)

mutual

def write : Value → String
  | .null => "null"
  | .bool true => "true"
  | .bool false => "false"
  | .number n => writeNumber n
  | .string s => writeString s
  | .brokenString => "null"
  | .malformed => "null"
  | .array items => "[" ++ ",".intercalate (writeItems items) ++ "]"
  | .object members => "\x7b" ++ ",".intercalate (writeMembers members) ++ "\x7d"

def writeItems : List Value → List String
  | [] => []
  | item :: rest => write item :: writeItems rest

def writeMembers : List (Option String × Value) → List String
  | [] => []
  | (name, value) :: rest =>
      (writeString (name.getD "") ++ ":" ++ write value) :: writeMembers rest

end

end ModuleDepot.Json
