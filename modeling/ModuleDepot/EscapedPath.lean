import ModuleDepot.Text.Quoted

/-!
The case-folding escape of path texts: an upper-case ASCII letter is written as
`!` and its lower-case form, so that two texts that differ only in case stay
apart where file names ignore it. Other letters, of any script, stay as they are.
-/

namespace ModuleDepot

inductive EscapeError where
  | literalMark (text : String)
  | danglingMark (text : String)
  | bareUpper (text : String)
deriving DecidableEq

namespace EscapedPath

/-- The escape of a list of characters, unless it holds `!`. -/
def foldCase? : List Char → Option (List Char)
  | [] => some []
  | c :: rest =>
      if c = '!' then none
      else if c.isUpper then (foldCase? rest).map fun tail => '!' :: c.toLower :: tail
      else (foldCase? rest).map fun tail => c :: tail

def escape (text : String) : Except EscapeError String :=
  match foldCase? text.toList with
  | some folded => .ok (String.ofList folded)
  | none => .error (.literalMark text)

inductive Fault where
  | dangling
  | upper
deriving DecidableEq

/-- Reads escaped characters back; the first fault from the left counts. -/
def restoreCase : List Char → Except Fault (List Char)
  | [] => .ok []
  | '!' :: next :: rest =>
      if next.isLower then (restoreCase rest).map fun tail => next.toUpper :: tail
      else .error .dangling
  | c :: rest =>
      if c = '!' then .error .dangling
      else if c.isUpper then .error .upper
      else (restoreCase rest).map fun tail => c :: tail

def unescape (text : String) : Except EscapeError String :=
  match restoreCase text.toList with
  | .ok plain => .ok (String.ofList plain)
  | .error .dangling => .error (.danglingMark text)
  | .error .upper => .error (.bareUpper text)

end EscapedPath

namespace EscapeError

def message : EscapeError → String
  | literalMark text => Text.quoted text ++ " contains a literal '!'"
  | danglingMark text => Text.quoted text ++ " has '!' not followed by a lower-case letter"
  | bareUpper text => Text.quoted text ++ " contains an unescaped upper-case letter"

end EscapeError

end ModuleDepot
