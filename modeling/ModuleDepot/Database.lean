import ModuleDepot.Registry.Catalog
import ModuleDepot.Settings.Basic
import ModuleDepot.Storage.FileTree
import ModuleDepot.Url.Percent

/-!
Opening the database behind an index or a catalog. A database in a file is made when
it is missing, with the directories above it; a database server is never reached.

The name of a database file is an address: `sqlite:` may stand before it, a `?` would
begin parameters of its own, and `%` escapes bytes. The directories are made for the
path as it was given.
-/

namespace ModuleDepot.Database

inductive OpenFault where
  | settings (e : Settings.Fault)
  | files (e : FileFault)
  | refused (reason : String)
deriving DecidableEq

def OpenFault.toIndexError : OpenFault → IndexError
  | settings e => .settings e.message
  | files e => .files e.message
  | refused reason => .database reason

def OpenFault.toCatalogError : OpenFault → CatalogError
  | settings e => .settings e.message
  | files e => .files e.message
  | refused reason => .database reason

/-! ## Names -/

inductive Target where
  | memory
  | file (path : String)
deriving DecidableEq

/-- A text without all the copies of `head` it begins with. -/
def dropHeads (head : List Char) (text : List Char) : List Char :=
  go text.length text
where
  go : Nat → List Char → List Char
    | 0, text => text
    | fuel + 1, text =>
        match head.isPrefixOf? text with
        | some rest => go fuel rest
        | none => text

def Target.ofPath? (path : String) : Option Target := do
  let address := "sqlite:".toList ++ path.toList
  let name := dropHeads "sqlite:".toList (dropHeads "sqlite://".toList address)
  if name.contains '?' then none
  if name = ":memory:".toList then return .memory
  let file ← Url.decode? name
  if file.isEmpty then return .memory
  return .file (String.ofList file)

/-! ## Files -/

def signature : List UInt8 := "SQLite format 3\x00".toUTF8.toList

/-- The content of a new database file, as far as it is told here. -/
def blank : ByteArray := ⟨signature.toArray⟩

/-- Whether a file can be opened as a database. An empty one can. -/
def isDatabase (data : ByteArray) : Bool :=
  data.isEmpty || signature.isPrefixOf data.toList

def openFile (path : List String) (tree : FileTree) : Except String FileTree :=
  let path := FileTree.names path
  match tree.locate true path with
  | .ok place =>
      match tree.at? place with
      | some (.file data) =>
          if data.isEmpty then .ok (tree.set place (.file blank))
          else if isDatabase data then .ok tree
          else .error "file is not a database"
      | _ => .error "unable to open database file"
  | .error .notFound =>
      match tree.createFile path with
      | .ok (place, made) => .ok (made.set place (.file blank))
      | .error e => .error e.message
  | .error e => .error e.message

/-- The directory that has to stand above a path, if the path names one. -/
def directoryAbove (here : List String) (path : String) : Option (List String) :=
  let above := (FileTree.names (FileTree.steps path)).dropLast
  if above.isEmpty then none
  else some (if FileTree.isFromTop path then above else here ++ above)

def makeAbove (here : List String) (path : String) (tree : FileTree) :
    Except FileFault Unit × FileTree :=
  match directoryAbove here path with
  | none => (.ok (), tree)
  | some above => tree.ensureDirectories above

/-- Opens a database; `here` is where relative paths begin. The directories stay when the
database is refused. Without time nothing can be opened. -/
def openAt (here : List String) (settings : Settings.Database) (tree : FileTree) :
    Except OpenFault Unit × FileTree :=
  match settings.fault?, settings with
  | some e, _ => (.error (.settings e), tree)
  | none, .server _ => (.error (.refused "no database server was reached"), tree)
  | none, .file path timeout =>
      match makeAbove here path tree with
      | (.error e, tree) => (.error (.files e), tree)
      | (.ok _, tree) =>
          match Target.ofPath? path with
          | none => (.error (.refused "the address names no database"), tree)
          | some target =>
              if timeout = some 0 then (.error (.refused "timed out"), tree)
              else
                match target with
                | .memory => (.ok (), tree)
                | .file name =>
                    match openFile (FileTree.stepsFrom here name) tree with
                    | .ok tree => (.ok (), tree)
                    | .error reason => (.error (.refused reason), tree)

/-- Opens an index, which holds nothing yet. -/
def openIndex (here : List String) (settings : Settings.Database) (tree : FileTree) :
    Except IndexError Index × FileTree :=
  let (opened, tree) := openAt here settings tree
  ((opened.mapError OpenFault.toIndexError).map fun _ => .migrate none, tree)

/-- Opens a catalog, which holds nothing yet. -/
def openCatalog (here : List String) (settings : Settings.Database) (tree : FileTree) :
    Except CatalogError Catalog × FileTree :=
  let (opened, tree) := openAt here settings tree
  ((opened.mapError OpenFault.toCatalogError).map fun _ => .empty, tree)

end ModuleDepot.Database
