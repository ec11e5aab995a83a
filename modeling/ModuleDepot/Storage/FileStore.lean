import ModuleDepot.Fault
import ModuleDepot.Storage.FileTree

/-!
A store of objects in a directory. An object's key is a relative path; keys that
would lead out of the directory, by their text or over a link, are refused.

An object is written beside its place first and then moved there, so that nobody
ever sees half of it.
-/

namespace ModuleDepot

inductive KeyFault where
  | leaves (key : String)
  | leavesByLink (key : String)
  | brokenLink (key : String)
deriving DecidableEq

def KeyFault.message : KeyFault → String
  | leaves key => "key leaves storage root: " ++ key
  | leavesByLink key => "key leaves storage root via symlink: " ++ key
  | brokenLink key => "broken symlink under key: " ++ key

inductive StorageError where
  | notFound (what : String)
  | files (e : FileFault)
  | key (e : KeyFault)
  | domain (e : Fault)
deriving DecidableEq

def StorageError.message : StorageError → String
  | notFound what => "object not found: " ++ what
  | files e => "I/O error: " ++ e.message
  | key e => "invalid key: " ++ e.message
  | domain e => e.message

structure FileStore where
  root : List String
  tree : FileTree
deriving DecidableEq

namespace FileStore

def kind : String := "filesystem"

/-- Whether a key stays below the root by its text alone. -/
def isRelative (key : String) : Bool :=
  key.toList.head? ≠ some '\\' &&
    match FileTree.steps key with
    | [] => false
    | first :: rest => first ≠ "" && first ≠ "." && !(first :: rest).contains ".."

def upward (path : List String) : List (List String) :=
  path :: (List.range (FileTree.names path).length).reverse.map fun n =>
    (FileTree.names path).take n

/-- Looks upward for something that stands, and demands that it stand below `anchor`. -/
def checkUpward (tree : FileTree) (anchor : Location) (key : String) :
    List (List String) → Except StorageError Unit
  | [] => .ok ()
  | path :: above =>
      match tree.locate false path with
      | .error .notFound => checkUpward tree anchor key above
      | .error e => .error (.files e)
      | .ok _ =>
          match tree.locate true path with
          | .error _ => .error (.key (.brokenLink key))
          | .ok place =>
              if anchor.isPrefixOf place then .ok () else .error (.key (.leavesByLink key))

def resolve (store : FileStore) (key : String) : Except StorageError (List String) :=
  if key = "" then .ok store.root
  else if !isRelative key then .error (.key (.leaves key))
  else do
    let path := store.root ++ FileTree.steps key
    let anchor ← (store.tree.locate true store.root).mapError .files
    checkUpward store.tree anchor key (upward path)
    return path

def faultFor (key : String) : FileFault → StorageError
  | .notFound => .notFound key
  | e => .files e

def get (store : FileStore) (key : String) : Except StorageError ByteArray := do
  let path ← store.resolve key
  (store.tree.readFile path).mapError (faultFor key)

/-! ## Writing -/

def stagingName (name fresh : String) : String := name ++ ".partial-" ++ fresh

/-- A call that a device lets fail while an object is written, though the tree would let it pass:
when directories are made, of which the first `made` still get to stand, when the new file is made,
when it is written, and the first `kept` bytes get into it, when it is synced, or when it is
moved. -/
inductive Mishap where
  | making (made : Nat) (e : FileFault)
  | creating (e : FileFault)
  | writing (kept : Nat) (e : FileFault)
  | syncing (e : FileFault)
  | moving (e : FileFault)
deriving DecidableEq

/-- What a write meets: the name that is drawn for its new file, and the call that fails, if one
does. The name is one that nothing has; under another the new file is not made. -/
structure Surroundings where
  fresh : String
  mishap : Option Mishap
deriving DecidableEq

/-- A name alone stands for surroundings in which no device fails. -/
instance : Coe String Surroundings := ⟨fun fresh => ⟨fresh, none⟩⟩

def makeAbove (mishap : Option Mishap) (above : List String) (tree : FileTree) :
    Except FileFault Unit × FileTree :=
  match mishap with
  | some (.making made e) => (.error e, (tree.ensureDirectories (above.take made)).2)
  | _ => tree.ensureDirectories above

def stage (mishap : Option Mishap) (path : List String) (tree : FileTree) :
    Except FileFault (Location × FileTree) :=
  match mishap with
  | some (.creating e) => .error e
  | _ => tree.createFile path

/-- Writes a new file and syncs it. What has been written stays in it when the rest fails. -/
def fill (mishap : Option Mishap) (data : ByteArray) (place : Location) (tree : FileTree) :
    Except FileFault Unit × FileTree :=
  match mishap with
  | some (.writing kept e) => (.error e, tree.set place (.file (data.extract 0 kept)))
  | some (.syncing e) => (.error e, tree.set place (.file data))
  | _ => (.ok (), tree.set place (.file data))

def moveInto (mishap : Option Mishap) (place : Location) (path : List String) (tree : FileTree) :
    Except FileFault Unit × FileTree :=
  match mishap with
  | some (.moving e) => (.error e, tree)
  | _ =>
      match tree.moveFile place path with
      | .ok moved => (.ok (), moved)
      | .error e => (.error e, tree)

def settle (mishap : Option Mishap) (data : ByteArray) (place : Location) (path : List String)
    (tree : FileTree) : Except FileFault Unit × FileTree :=
  match fill mishap data place tree with
  | (.ok _, filled) => moveInto mishap place path filled
  | refused => refused

/-- Writes a file beside where a path leads, and moves it there. Whatever fails once there is a new
file, it is taken away again. -/
def writeAt (around : Surroundings) (path : List String) (data : ByteArray) (tree : FileTree) :
    Except FileFault Unit × FileTree :=
  let above := (FileTree.names path).dropLast
  match makeAbove around.mishap above tree with
  | (.error e, tree) => (.error e, tree)
  | (.ok _, tree) =>
      let staging := above ++ [stagingName ((FileTree.names path).getLast?.getD "") around.fresh]
      match stage around.mishap staging tree with
      | .error e => (.error e, tree)
      | .ok (place, created) =>
          match settle around.mishap data place path created with
          | (.ok _, moved) => (.ok (), moved)
          | (.error e, left) => (.error e, (left.removeFile staging).toOption.getD left)

def put (around : Surroundings) (key : String) (data : ByteArray) (store : FileStore) :
    Except StorageError Unit × FileStore :=
  match store.resolve key with
  | .error e => (.error e, store)
  | .ok path =>
      let (done, tree) := writeAt around path data store.tree
      (done.mapError .files, { store with tree })

def delete (key : String) (store : FileStore) : Except StorageError Unit × FileStore :=
  match store.resolve key with
  | .error e => (.error e, store)
  | .ok path =>
      match store.tree.removeFile path with
      | .ok tree => (.ok (), { store with tree })
      | .error e => (.error (faultFor key e), store)

/-- Whether the root is a directory that can be reached. -/
def health (store : FileStore) : Except StorageError Unit :=
  match store.tree.locate true store.root with
  | .error e => .error (.files e)
  | .ok place =>
      if store.tree.at? place = some .directory then .ok ()
      else .error (.files .notDirectory)

def openAt (root : List String) (tree : FileTree) :
    Except StorageError FileStore × FileTree :=
  match tree.ensureDirectories (FileTree.names root) with
  | (.ok _, tree) => (.ok ⟨root, tree⟩, tree)
  | (.error e, tree) => (.error (.files e), tree)

end FileStore

end ModuleDepot
