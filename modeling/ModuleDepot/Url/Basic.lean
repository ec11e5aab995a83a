import ModuleDepot.Url.Host

/-!
Addresses: a scheme, the authority that answers for it, a path, and what may
follow. Paths are kept as lists of segments, so that nothing in them is a slash
or a dot segment.
-/

namespace ModuleDepot

namespace Url

/-- A path: segments below the root of an authority, or text without structure. -/
inductive Path where
  | segments (parts : List (List Char))
  | opaqueText (text : List Char)
deriving DecidableEq

end Url

structure Url where
  scheme : List Char
  username : List Char
  password : Option (List Char)
  host : Option Url.Host
  portNumber : Option Nat
  path : Url.Path
  query : Option (List Char)
  fragment : Option (List Char)
deriving DecidableEq

namespace Url

/-- The schemes whose addresses always have an authority, with their usual numbers. -/
def specialSchemes : List (List Char × Option Nat) :=
  [("http".toList, some 80), ("https".toList, some 443), ("ws".toList, some 80),
   ("wss".toList, some 443), ("ftp".toList, some 21), ("file".toList, none)]

def isSpecialScheme (scheme : List Char) : Bool := (specialSchemes.lookup scheme).isSome

def usualNumber (scheme : List Char) : Option Nat := (specialSchemes.lookup scheme).join

def pathText : Path → List Char
  | .opaqueText text => text
  | .segments parts => parts.flatMap fun part => '/' :: part

def userText (u : Url) : List Char :=
  match u.username, u.password with
  | [], none => []
  | name, none => name ++ ['@']
  | name, some password => name ++ [':'] ++ password ++ ['@']

def authorityText (u : Url) : List Char :=
  match u.host with
  | none => []
  | some host =>
      ['/', '/'] ++ u.userText ++ host.display ++
        (match u.portNumber with
          | none => []
          | some n => ':' :: Nat.toDigits 10 n)

def partText (mark : Char) : Option (List Char) → List Char
  | none => []
  | some text => mark :: text

def display (u : Url) : String :=
  let guarded := match u.host, u.path with
    | none, .segments ([] :: _ :: _) => ['/', '.']
    | _, _ => []
  String.ofList (u.scheme ++ [':'] ++ u.authorityText ++ guarded ++ pathText u.path ++
    partText '?' u.query ++ partText '#' u.fragment)

/-- An address without its user and its fragment, as it is sent. -/
def bare (u : Url) : Url :=
  { u with username := [], password := none, fragment := none }

end Url

end ModuleDepot
