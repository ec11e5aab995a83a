import ModuleDepot.Fault

/-!
Paths of the module protocol: below `source/@v/` lie `list`, the documents
`version.info`, `version.mod` and `version.zip`, and the version itself, which is
what gets deleted. Source and version are escaped.
-/

namespace ModuleDepot

/-- What a path of the module protocol names. -/
inductive ModulePath where
  | list (source : String)
  | info (c : Coordinate)
  | manifest (c : Coordinate)
  | archive (c : Coordinate)
  | version (c : Coordinate)
deriving DecidableEq

namespace ModulePath

/-- The mark between a source and what lies below it. -/
def mark : List Char := "/@v/".toList

def unescaped (text : List Char) : Except Fault String :=
  (EscapedPath.unescape (String.ofList text)).mapError .escape

def coordinate (source : String) (version : List Char) : Except Fault Coordinate := do
  (Coordinate.make source (← unescaped version)).mapError .coordinate

/-- The endings of a version's documents, in the order in which they are tried. -/
def endings : List (List Char × (Coordinate → ModulePath)) :=
  [(".info".toList, info), (".mod".toList, manifest), (".zip".toList, archive)]

def below (source : String) (rest : List Char) : Except Fault ModulePath :=
  if rest = "list".toList then .ok (list source)
  else
    let found := endings.findSome? fun (ending, kind) =>
      (Text.beforeEnding? ending rest).map fun escaped => (escaped, kind)
    match found with
    | some (escaped, kind) => (coordinate source escaped).map kind
    | none => (coordinate source rest).map version

/-- Reads a path. The last mark divides source and rest, both of which have to be there; any
other path is none of the protocol. -/
def parse (path : String) : Except Fault (Option ModulePath) :=
  match Text.cutLast mark (Text.dropLeading '/' path.toList) with
  | none => .ok none
  | some (source, rest) =>
      if source.isEmpty || rest.isEmpty then .ok none
      else do
        let source ← unescaped source
        return some (← below source rest)

end ModulePath

end ModuleDepot
