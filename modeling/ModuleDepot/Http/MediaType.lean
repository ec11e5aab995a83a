/-!
Media types, as far as it matters whether a body is said to be JSON.
-/

namespace ModuleDepot.Http.MediaType

def isToken (c : Char) : Bool := c.isAlphanum || "!#$%&\x27+-.^_\x60|~".toList.contains c

def isQuotedChar (c : Char) : Bool := c.toNat ≠ 0x7f && 0x20 ≤ c.toNat && c.toNat < 0x100

/-- Whether a text is a list of parameters. The fuel is the length of the text. -/
def areParameters : Nat → List Char → Bool
  | _, [] => true
  | 0, _ => false
  | fuel + 1, ' ' :: rest => areParameters fuel rest
  | fuel + 1, text =>
      let name := text.takeWhile isToken
      match name, text.dropWhile isToken with
      | _ :: _, '=' :: '"' :: value =>
          let quoted := value.takeWhile fun c => isQuotedChar c && c ≠ '"'
          match quoted, value.drop quoted.length with
          | _ :: _, '"' :: rest =>
              match rest.dropWhile (· = ' ') with
              | [] => true
              | ';' :: rest => areParameters fuel rest
              | _ => false
          | _, _ => false
      | _ :: _, '=' :: value =>
          match value.takeWhile isToken, value.dropWhile isToken with
          | _, [] => true
          | _ :: _, ';' :: rest => areParameters fuel rest
          | _, _ => false
      | _, _ => false

def read? (text : String) : Option (List Char × List Char) :=
  let chars := text.toList
  match chars.takeWhile isToken, chars.dropWhile isToken with
  | kind@(_ :: _), '/' :: rest =>
      match rest.takeWhile isToken, rest.dropWhile isToken with
      | name, [] => some (kind, name)
      | name@(_ :: _), ';' :: parameters =>
          if areParameters parameters.length parameters then some (kind, name) else none
      | _, _ => none
  | _, _ => none

/-- What stands before the last plus sign of a name, and what stands after it. -/
def splitSuffix (name : List Char) : List Char × Option (List Char) :=
  let after := (name.reverse.takeWhile (· ≠ '+')).reverse
  let before := name.take (name.length - after.length - 1)
  if after.length < name.length && !before.isEmpty then (before, some after) else (name, none)

def isJson (text : String) : Bool :=
  match read? text with
  | none => false
  | some (kind, name) =>
      let (base, suffix) := splitSuffix (name.map Char.toLower)
      kind.map Char.toLower = "application".toList &&
        (base = "json".toList || suffix = some "json".toList)

end ModuleDepot.Http.MediaType
