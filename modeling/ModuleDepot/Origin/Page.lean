import ModuleDepot.Text.Blank
import ModuleDepot.Text.Quoted
import ModuleDepot.Text.Split
import ModuleDepot.Text.Word

/-!
Pages that tell where a module is kept. A page says so in a `meta` tag whose name
is `go-source` or `go-import`; the place is the first address in the tag's content.

A tag is looked for from left to right, and in a tag the last name and the last
content that fit are taken.
-/

namespace ModuleDepot.Page

/-- Whether two letters are the same when case does not matter. The long s is an s. -/
def sameLetter (a b : Char) : Bool :=
  let fold := fun (c : Char) => if c = '\u017f' then 's' else c.toLower
  fold a == fold b

def afterWord (word : List Char) (text : List Char) : Option (List Char) :=
  match word, text with
  | [], text => some text
  | w :: word, c :: text => if sameLetter w c then afterWord word text else none
  | _ :: _, [] => none

def isQuote (c : Char) : Bool := c == '"' || c == '\x27'

/-- The text after an attribute's name, the equals sign and the opening quotation mark. -/
def afterOpening (name : List Char) (text : List Char) : Option (List Char) :=
  match afterWord name text with
  | none => none
  | some rest =>
      match rest.dropWhile Text.isBlank with
      | '=' :: rest =>
          match rest.dropWhile Text.isBlank with
          | c :: rest => if isQuote c then some rest else none
          | [] => none
      | _ => none

/-- The first result that `read` has at a place in the rest of the tag, the last place
first. -/
def lastInTag {α : Type} (read : List Char → Option α) : List Char → Option α
  | [] => read []
  | c :: rest =>
      if c == '>' then read (c :: rest)
      else (lastInTag read rest).or (read (c :: rest))

def contentHere (text : List Char) : Option (List Char) := do
  let value ← afterOpening "content".toList text
  if value.any isQuote then some (value.takeWhile (!isQuote ·)) else none

/-- The content of a tag whose `name` attribute begins here and has the given value. -/
def namedHere (name text : List Char) : Option (List Char) := do
  let value ← afterOpening "name".toList text
  match ← afterWord name value with
  | c :: rest => if isQuote c then lastInTag contentHere rest else none
  | [] => none

def tagHere (name text : List Char) : Option (List Char) := do
  match ← afterWord "<meta".toList text with
  | c :: rest => if Text.isBlank c then lastInTag (namedHere name) rest else none
  | [] => none

def contentOf (name : List Char) : List Char → Option (List Char)
  | [] => tagHere name []
  | c :: rest => (tagHere name (c :: rest)).or (contentOf name rest)

/-- The names under which a place is given, the better one first. -/
def tagNames : List (List Char) := ["go-source".toList, "go-import".toList]

structure Place where
  transport : String
  domain : String
  segments : List String
deriving DecidableEq

def isHostChar (c : Char) : Bool := Text.isWord c || c == '.' || c == '-'

def isPathChar (c : Char) : Bool := isHostChar c || c == '/'

/-- The number of a host's door with its colon, if there is one, and the rest. -/
def doorNumber (text : List Char) : List Char × List Char :=
  match text with
  | ':' :: rest =>
      match rest.takeWhile Text.isDecimalDigit with
      | [] => ([], text)
      | digits => (':' :: digits, rest.dropWhile Text.isDecimalDigit)
  | _ => ([], text)

/-- The segments of a path, without a `.git` at its end and without empty ones. -/
def pathSegments (path : List Char) : List String :=
  let path := Text.dropTrailing '/' path
  let path := (Text.beforeEnding? ".git".toList path).getD path
  ((path.splitOn '/').filter (!·.isEmpty)).map String.ofList

def placeHere (text : List Char) : Option Place := do
  let rest ← "http".toList.isPrefixOf? text
  let (transport, rest) := match rest with
    | 's' :: rest => ("https", rest)
    | rest => ("http", rest)
  let rest ← "://".toList.isPrefixOf? rest
  let host := rest.takeWhile isHostChar
  if host.isEmpty then none
  let (door, rest) := doorNumber (rest.dropWhile isHostChar)
  match rest with
  | '/' :: rest =>
      let path := rest.takeWhile isPathChar
      if path.isEmpty then none
      else some ⟨transport, String.ofList (host ++ door), pathSegments path⟩
  | _ => none

def placeIn : List Char → Option Place
  | [] => none
  | c :: rest => (placeHere (c :: rest)).or (placeIn rest)

inductive Fault where
  | noTag
  | noPlace (content : String)
deriving DecidableEq

def Fault.message : Fault → String
  | noTag => "no go-source or go-import meta tag"
  | noPlace content => "no location in " ++ Text.quoted content

def place (page : String) : Except Fault Place :=
  match tagNames.findSome? fun name => contentOf name page.toList with
  | none => .error .noTag
  | some content =>
      match placeIn content with
      | some place => .ok place
      | none => .error (.noPlace (String.ofList content))

end ModuleDepot.Page
