import ModuleDepot.Archive.Container
import ModuleDepot.Coordinate

/-!
The layout of module archives. An archive as its origin serves it has one top
directory with everything below it. The layout that a proxy serves has the
directory `source@version/` instead, and leaves out directories, housekeeping
files at the root, vendored packages, and every nested module, which is a
directory with a manifest of its own.
-/

namespace ModuleDepot

namespace Archive

/-- The text up to and with the first slash. -/
def topDirectory? (name : List Char) : Option (List Char) :=
  (Text.cutFirst '/' name).map fun (top, _) => top ++ ['/']

def below (top name : List Char) : List Char := name.drop top.length

/-- The common top directory of a list of names: the first name without one, or with
another one, or inside `target`, is a fault. Nothing if there are no names. -/
def commonTop (target : List Char) (top : Option (List Char)) :
    List Entry → Except ArchiveError (Option (List Char))
  | [] => .ok top
  | e :: rest =>
      if target.isPrefixOf e.name.toList then .error (.insideLayout e.name)
      else
        match topDirectory? e.name.toList with
        | none => .error (.noTopDirectory e.name)
        | some next =>
            match top with
            | none => commonTop target (some next) rest
            | some first =>
                if first = next then commonTop target top rest
                else .error (.severalTops (String.ofList first) (String.ofList next))

/-- The directories, with their closing slash, that hold a manifest. -/
def moduleDirectories (top : List Char) (entries : List Entry) : List (List Char) :=
  (entries.filter Entry.isManifest).map fun e =>
    (Text.beforeEnding? manifestName (below top e.name.toList)).getD []

/-- Files at the root that only the origin's own tools need. -/
def housekeeping : List (List Char) :=
  [".hg_archival.txt".toList, ".gitattributes".toList]

def isVendored (path : List Char) : Bool :=
  (path.splitOn '/').dropLast.contains "vendor".toList

/-- Whether a path lies in one of the directories, the root not counted. -/
def isNested (directories : List (List Char)) (path : List Char) : Bool :=
  directories.any fun d => !d.isEmpty && d.isPrefixOf path

def isExcluded (directories : List (List Char)) (path : List Char) : Bool :=
  housekeeping.contains path || isVendored path || isNested directories path

/-- Whether a path ends in the manifest's name written with other letter cases. -/
def isMiscased (path : List Char) : Bool :=
  let base := baseName path
  base.map Char.toLower == manifestName && base != manifestName

/-- The kept files under their new names; the first one with a miscased manifest is a
fault. -/
def relocate (target top : List Char) (directories : List (List Char)) :
    List Entry → Except ArchiveError (List Entry)
  | [] => .ok []
  | e :: rest =>
      let path := below top e.name.toList
      if e.isDirectory || isExcluded directories path then relocate target top directories rest
      else if isMiscased path then .error (.manifestCasing e.name)
      else (relocate target top directories rest).map fun kept =>
        { e with name := String.ofList (target ++ path) } :: kept

def normalise (c : Coordinate) (a : Archive) : Except ArchiveError Archive := do
  let target := c.archiveRoot.toList
  match ← commonTop target none a.entries with
  | none => return ⟨[]⟩
  | some top =>
      let kept ← relocate target top (moduleDirectories top a.entries) a.entries
      return ⟨kept⟩

end Archive

namespace ArchiveError

def message : ArchiveError → String
  | unreadable => "archive i/o error: no readable directory"
  | repeatedName name => "archive i/o error: duplicate entry " ++ name
  | refusedEntry => "archive i/o error: entry cannot be unpacked"
  | damagedEntry => "i/o error: entry is damaged"
  | manifestNotText => "i/o error: manifest is not UTF-8"
  | insideLayout name =>
      "malformed archive: entry " ++ Text.quoted name ++ " is already in module layout"
  | noTopDirectory name =>
      "malformed archive: entry " ++ Text.quoted name ++ " has no top-level directory"
  | severalTops first second =>
      "malformed archive: multiple top-level directories: " ++ Text.quoted first ++ " and " ++
        Text.quoted second
  | manifestCasing name => "go.mod file has non-canonical casing: " ++ name

end ArchiveError

/-! ## Archives as bytes -/

namespace Blob

def manifest (data : ByteArray) : Except ArchiveError (Option String) := do
  (← Archive.Container.read data).manifest

def names (data : ByteArray) : Except ArchiveError (List String) := do
  return (← Archive.Container.read data).names

def build (files : List (String × ByteArray)) : Except ArchiveError ByteArray := do
  return Archive.Container.write (← Archive.build files)

def normalise (c : Coordinate) (data : ByteArray) : Except ArchiveError ByteArray := do
  return Archive.Container.write (← Archive.normalise c (← Archive.Container.read data))

end Blob

end ModuleDepot
