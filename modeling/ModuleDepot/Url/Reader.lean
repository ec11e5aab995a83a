import ModuleDepot.Text.Split
import ModuleDepot.Url.Basic

/-!
Reading addresses. `Url.read` reads an address that stands for itself, and
`Url.join` one that may be relative to another. A text with a scheme is never
relative, unless it has the base's own special scheme and no authority.
-/

namespace ModuleDepot.Url

/-! ## Parts of the text -/

/-- Characters that do not count at the two ends of an address. -/
def isTrimmed (c : Char) : Bool := c.toNat ≤ 0x20

/-- Characters that do not count anywhere in an address. -/
def isSkipped (c : Char) : Bool := c == '\t' || c == '\n' || c == '\r'

def relevant (text : List Char) : List Char :=
  (((text.dropWhile isTrimmed).reverse.dropWhile isTrimmed).reverse).filter (!isSkipped ·)

def isSchemeChar (c : Char) : Bool := c.isAlphanum || c == '+' || c == '-' || c == '.'

/-- The scheme in lower case and the text after its colon. -/
def cutScheme (text : List Char) : Option (List Char × List Char) :=
  match text with
  | [] => none
  | c :: _ =>
      if !c.isAlpha then none
      else
        match text.dropWhile isSchemeChar with
        | ':' :: rest => some ((text.takeWhile isSchemeChar).map Char.toLower, rest)
        | _ => none

def isSlash (special : Bool) (c : Char) : Bool := c == '/' || (special && c == '\\')

def endsAuthority (special : Bool) (c : Char) : Bool :=
  isSlash special c || c == '?' || c == '#'

/-- A text cut into the part before a query or fragment, the query, and the fragment. -/
def cutTail (text : List Char) : List Char × Option (List Char) × Option (List Char) :=
  let (main, fragment) := match Text.cutFirst '#' text with
    | some (main, fragment) => (main, some fragment)
    | none => (text, none)
  match Text.cutFirst '?' main with
  | some (path, query) => (path, some query, fragment)
  | none => (main, none, fragment)

def readQuery (query : Option (List Char)) : Option (List Char) := query.map (encode querySet)

def readFragment (fragment : Option (List Char)) : Option (List Char) :=
  fragment.map (encode fragmentSet)

/-! ## Paths -/

/-- A segment with its encoded dots written plainly, to tell whether it is a dot segment. -/
def plainDots : List Char → List Char
  | '%' :: '2' :: 'e' :: rest => '.' :: plainDots rest
  | '%' :: '2' :: 'E' :: rest => '.' :: plainDots rest
  | c :: rest => c :: plainDots rest
  | [] => []

/-- Whether a segment stands for the place itself. -/
def isHere (segment : List Char) : Bool := plainDots segment == ['.']

/-- Whether a segment stands for the place above. -/
def isAbove (segment : List Char) : Bool := plainDots segment == ['.', '.']

def cutSegments (special : Bool) (text : List Char) : List (List Char) :=
  text.splitOnP (isSlash special)

/-- Goes along segments from a place: a dot segment at the end leaves an empty one. -/
def walk (place : List (List Char)) : List (List Char) → List (List Char)
  | [] => place
  | [last] =>
      if isAbove last then place.dropLast ++ [[]]
      else if isHere last then place ++ [[]]
      else place ++ [encode pathSet last]
  | segment :: rest =>
      if isAbove segment then walk place.dropLast rest
      else if isHere segment then walk place rest
      else walk (place ++ [encode pathSet segment]) rest

/-- The path after an authority. A special address always has one. -/
def readPath (special : Bool) (text : List Char) : List (List Char) :=
  match text with
  | [] => if special then [[]] else []
  | c :: rest =>
      walk [] (cutSegments special (if isSlash special c then rest else c :: rest))

/-! ## Authorities -/

/-- The user and what follows the last `@`. -/
def readUser (authority : List Char) :
    (List Char × Option (List Char)) × Bool × List Char :=
  match Text.cutLast ['@'] authority with
  | none => (([], none), false, authority)
  | some (user, rest) =>
      let (name, password) := match Text.cutFirst ':' user with
        | none => (user, none)
        | some (name, []) => (name, none)
        | some (name, password) => (name, some password)
      ((encode userSet name, password.map (encode userSet)), true, rest)

/-- The host and the text after it; a colon inside brackets does not end it. -/
def cutHost (inside : Bool) : List Char → List Char × List Char
  | [] => ([], [])
  | c :: rest =>
      if c == ':' && !inside then ([], c :: rest)
      else
        let inside := if c == '[' then true else if c == ']' then false else inside
        let (host, rest) := cutHost inside rest
        (c :: host, rest)

/-- The number after a host, unless it is the usual one. -/
def readPortNumber (scheme text : List Char) : Except UrlError (Option Nat) :=
  match text with
  | ':' :: digits =>
      if !digits.all Char.isDigit then .error .invalidNumber
      else
        let n := digits.foldl (fun n d => 10 * n + (d.toNat - '0'.toNat)) 0
        if 65535 < n then .error .invalidNumber
        else if digits.isEmpty || usualNumber scheme = some n then .ok none
        else .ok (some n)
  | _ => .ok none

def readAuthority (scheme text : List Char) : Except UrlError Url := do
  let special := isSpecialScheme scheme
  let authority := text.takeWhile (!endsAuthority special ·)
  let (path, query, fragment) := cutTail (text.dropWhile (!endsAuthority special ·))
  let ((username, password), hasUser, place) := readUser authority
  let (hostText, numberText) := cutHost false place
  if hostText.isEmpty && (special || hasUser || !numberText.isEmpty) then throw .emptyHost
  let host ← if special then Host.readSpecial hostText else Host.readOpaque hostText
  let portNumber ← readPortNumber scheme numberText
  return {
    scheme, username, password, host, portNumber
    path := .segments (readPath special path)
    query := readQuery query
    fragment := readFragment fragment }

/-! ## Addresses of files -/

/-- The scheme of files, whose addresses may leave out the host. -/
def fileScheme : List Char := "file".toList

def readFile (text : List Char) : Except UrlError Url := do
  let (main, query, fragment) := cutTail text
  let (host, path) ← match main with
    | a :: b :: rest =>
        if isSlash true a && isSlash true b then do
          let name := rest.takeWhile (!isSlash true ·)
          let path := rest.dropWhile (!isSlash true ·)
          if name.isEmpty || name == "localhost".toList then pure (none, path)
          else pure (some (← Host.readSpecial name), path)
        else pure (none, main)
    | _ => pure (none, main)
  return {
    scheme := fileScheme
    username := []
    password := none
    host
    portNumber := none
    path := .segments (readPath true path)
    query := readQuery query
    fragment := readFragment fragment }

/-! ## Whole addresses -/

def readOther (scheme text : List Char) : Except UrlError Url :=
  match text with
  | '/' :: '/' :: rest => readAuthority scheme rest
  | _ =>
      let (main, query, fragment) := cutTail text
      let path := match main with
        | '/' :: _ => Path.segments (readPath false main)
        | _ => Path.opaqueText (encode isControlOrForeign main)
      .ok {
        scheme
        username := []
        password := none
        host := none
        portNumber := none
        path
        query := readQuery query
        fragment := readFragment fragment }

def readAfterScheme (scheme text : List Char) : Except UrlError Url :=
  if scheme = fileScheme then readFile text
  else if isSpecialScheme scheme then readAuthority scheme (text.dropWhile (isSlash true))
  else readOther scheme text

def read (text : String) : Except UrlError Url :=
  match cutScheme (relevant text.toList) with
  | some (scheme, rest) => readAfterScheme scheme rest
  | none => .error .relativeWithoutBase

def Path.parts : Path → List (List Char)
  | .segments parts => parts
  | .opaqueText _ => []

def readRelative (base : Url) (text : List Char) : Except UrlError Url :=
  let special := isSpecialScheme base.scheme
  match text with
  | [] => .ok { base with fragment := none }
  | c :: rest =>
      if c == '#' then .ok { base with fragment := readFragment (some rest) }
      else if c == '?' then
        let (_, query, fragment) := cutTail text
        .ok { base with query := readQuery query, fragment := readFragment fragment }
      else if isSlash special c then
        match rest with
        | d :: after =>
            if isSlash special d then
              readAuthority base.scheme
                (if special then after.dropWhile (isSlash true) else after)
            else
              let (path, query, fragment) := cutTail text
              .ok { base with
                path := .segments (readPath special path)
                query := readQuery query
                fragment := readFragment fragment }
        | [] => .ok { base with path := .segments [[]], query := none, fragment := none }
      else
        let (path, query, fragment) := cutTail text
        .ok { base with
          path := .segments (walk base.path.parts.dropLast (cutSegments special path))
          query := readQuery query
          fragment := readFragment fragment }

/-- Whether an address has no structure that others could be relative to. -/
def isOpaque (u : Url) : Bool :=
  match u.path with
  | .opaqueText _ => true
  | .segments _ => false

def join (base : Url) (text : String) : Except UrlError Url :=
  let chars := relevant text.toList
  match cutScheme chars with
  | some (scheme, rest) =>
      let slashes := (rest.takeWhile (isSlash true)).length
      if isSpecialScheme scheme && scheme == base.scheme && slashes < 2 then
        readRelative base rest
      else readAfterScheme scheme rest
  | none =>
      if isOpaque base then
        match chars with
        | '#' :: fragment => .ok { base with fragment := readFragment (some fragment) }
        | _ => .error .relativeOnOpaqueBase
      else readRelative base chars

end ModuleDepot.Url
