import ModuleDepot.Text.Invisible

/-!
Texts as they are shown inside messages: between quotes, with the quote, the
backslash and everything invisible written as an escape. A double-quoted text
keeps a single quote as it is, and a single-quoted character keeps a double one.
-/

namespace ModuleDepot.Text

/-- A character written by its number: a backslash, `u` and the number in braces. -/
def numberedEscape (c : Char) : List Char :=
  ['\\', 'u', '\x7b'] ++ Nat.toDigits 16 c.toNat ++ ['\x7d']

/-- One character of a text that stands between two copies of `quote`. -/
def quotedChar (quote c : Char) : List Char :=
  if c = '\x00' then ['\\', '0']
  else if c = '\t' then ['\\', 't']
  else if c = '\r' then ['\\', 'r']
  else if c = '\n' then ['\\', 'n']
  else if c = quote || c = '\\' then ['\\', c]
  else if isInvisible c then numberedEscape c
  else [c]

def quoted (text : String) : String :=
  String.ofList ('"' :: text.toList.flatMap (quotedChar '"') ++ ['"'])

def quotedLetter (c : Char) : String :=
  String.ofList ('\x27' :: quotedChar '\x27' c ++ ['\x27'])

end ModuleDepot.Text
