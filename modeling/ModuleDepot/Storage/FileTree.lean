import ModuleDepot.Bytes.Equality
import ModuleDepot.Bytes.Utf8

/-!
Trees of files, directories and links, and the calls of a file system on them.

A location is the list of names from the top down. A path is a list of steps,
which are names, empty texts, `.` and `..`; an empty step stands for nothing but,
like `.`, needs a directory to stand in, so a path with a slash at its end is one
with an empty last step. Steps that are links are followed, at most forty of them.
-/

namespace ModuleDepot

/-- What stands at a location. A link leads along steps, from the top or from where it
stands. -/
inductive Node where
  | file (data : ByteArray)
  | directory
  | link (fromTop : Bool) (steps : List String)
deriving DecidableEq

/-- Why a file system refuses a call: for what stands in the tree, or because a device fails. -/
inductive FileFault where
  | notFound
  | notDirectory
  | isDirectory
  | invalidPath
  | nameTooLong
  | tooManyLinks
  | busy
  | alreadyThere
  | device (reason : String)
deriving DecidableEq

def FileFault.message : FileFault → String
  | notFound => "No such file or directory (os error 2)"
  | notDirectory => "Not a directory (os error 20)"
  | isDirectory => "Is a directory (os error 21)"
  | invalidPath => "file name contained an unexpected NUL byte"
  | nameTooLong => "File name too long (os error 36)"
  | tooManyLinks => "Too many levels of symbolic links (os error 40)"
  | busy => "Device or resource busy (os error 16)"
  | alreadyThere => "File exists (os error 17)"
  | device reason => reason

/-- The names from the top down to something. -/
abbrev Location := List String

structure FileTree where
  entries : List (Location × Node)
deriving DecidableEq

namespace FileTree

def empty : FileTree := ⟨[]⟩

/-- What stands at a location; at the top there is a directory. -/
def at? (tree : FileTree) (place : Location) : Option Node :=
  if place = [] then some .directory else tree.entries.lookup place

def erase (place : Location) (tree : FileTree) : FileTree :=
  ⟨tree.entries.filter fun entry => entry.1 ≠ place⟩

/-- Puts something at a location in the place of what stood there. -/
def set (place : Location) (node : Node) (tree : FileTree) : FileTree :=
  ⟨(place, node) :: (tree.erase place).entries⟩

/-! ## Paths as texts -/

def steps (path : String) : List String := (path.toList.splitOn '/').map String.ofList

def names (path : List String) : List String :=
  path.filter fun step => step ≠ "" && step ≠ "."

def isFromTop (path : String) : Bool := path.toList.head? = some '/'

/-- The steps of a path that begins at the top or else at `here`. -/
def stepsFrom (here : List String) (path : String) : List String :=
  if isFromTop path then steps path else here ++ steps path

/-! ## Walking -/

/-- The longest name, in bytes. -/
def nameLimit : Nat := 255

/-- The longest path, in bytes. -/
def pathLimit : Nat := 4095

def linkLimit : Nat := 40

def isLongName (name : String) : Bool := nameLimit < name.utf8ByteSize

/-- Walks along steps. With `follow` a link at the end is followed as well; `links` is how
many links may still be followed. -/
def walk (tree : FileTree) (follow : Bool) (links : Nat) (here : Location)
    (steps : List String) : Except FileFault Location :=
  match steps with
  | [] => .ok here
  | step :: rest =>
      if tree.at? here ≠ some .directory then .error .notDirectory
      else if step = "" ∨ step = "." then walk tree follow links here rest
      else if step = ".." then walk tree follow links here.dropLast rest
      else if isLongName step then .error .nameTooLong
      else
        match tree.at? (here ++ [step]) with
        | none => .error .notFound
        | some (.link fromTop target) =>
            if rest.isEmpty && !follow then .ok (here ++ [step])
            else
              match links with
              | 0 => .error .tooManyLinks
              | left + 1 =>
                  walk tree follow left (if fromTop then [] else here) (target ++ rest)
        | some _ => walk tree follow links (here ++ [step]) rest
termination_by (links, steps.length)

/-- The bytes of a path, with a slash before each step. -/
def pathSize (path : List String) : Nat :=
  path.foldl (fun size step => size + step.utf8ByteSize + 1) 0

/-- Whether a path can be handed to the file system at all. -/
def checkPath (path : List String) : Except FileFault Unit :=
  if path.any fun step => step.toList.contains '\x00' then .error .invalidPath
  else if pathLimit < pathSize path then .error .nameTooLong
  else .ok ()

/-- The location that a path from the top leads to. Something stands there. -/
def locate (tree : FileTree) (follow : Bool) (path : List String) :
    Except FileFault Location := do
  checkPath path
  walk tree follow linkLimit [] path

def isDirectory (tree : FileTree) (path : List String) : Bool :=
  match tree.locate true path with
  | .ok place => tree.at? place = some .directory
  | .error _ => false

/-- The last step of a path, before any slashes at its end. -/
structure LastStep where
  directory : Location
  name : String
  hasSlash : Bool

/-- Walks to the directory in which the last step of a path is taken. -/
def lastStep (tree : FileTree) (path : List String) : Except FileFault LastStep := do
  checkPath path
  let bare := (path.reverse.dropWhile (· = "")).reverse
  let directory ← walk tree true linkLimit [] bare.dropLast
  if tree.at? directory ≠ some .directory then throw .notDirectory
  return ⟨directory, bare.getLast?.getD ".", bare.length ≠ path.length⟩

/-- The location that a last step leads to, if it leads to a name. -/
def LastStep.place? (step : LastStep) : Option Location :=
  if step.name = "." ∨ step.name = ".." then none else some (step.directory ++ [step.name])

/-! ## Calls -/

def readFile (tree : FileTree) (path : List String) : Except FileFault ByteArray := do
  let place ← tree.locate true path
  match tree.at? place with
  | some (.file data) => return data
  | some .directory => throw .isDirectory
  | some (.link _ _) => throw .tooManyLinks
  | none => throw .notFound

/-- Takes away the file or the link at the end of a path. -/
def removeFile (path : List String) (tree : FileTree) : Except FileFault FileTree := do
  let step ← tree.lastStep path
  match step.place? with
  | none => throw .isDirectory
  | some place =>
      if isLongName step.name then throw .nameTooLong
      match tree.at? place with
      | none => throw .notFound
      | some .directory => throw .isDirectory
      | some _ => if step.hasSlash then throw .notDirectory else return tree.erase place

/-- Makes a file with nothing in it under a name that nothing has, and tells where. -/
def createFile (path : List String) (tree : FileTree) :
    Except FileFault (Location × FileTree) := do
  let step ← tree.lastStep path
  match step.place? with
  | none => throw .isDirectory
  | some place =>
      if isLongName step.name then throw .nameTooLong
      if step.hasSlash then throw .isDirectory
      match tree.at? place with
      | none => return (place, tree.set place (.file ByteArray.empty))
      | some _ => throw .alreadyThere

/-- Moves a file to where a path leads, over a file or a link that stands there. -/
def moveFile (source : Location) (path : List String) (tree : FileTree) :
    Except FileFault FileTree := do
  let step ← tree.lastStep path
  match step.place?, tree.at? source with
  | none, _ => throw .busy
  | some _, none => throw .notFound
  | some place, some node =>
      if isLongName step.name then throw .nameTooLong
      if step.hasSlash then throw .notDirectory
      match tree.at? place with
      | some .directory => throw .isDirectory
      | _ => return (tree.erase source).set place node

def makeDirectory (path : List String) (tree : FileTree) : Except FileFault FileTree := do
  let step ← tree.lastStep path
  match step.place? with
  | none => throw .alreadyThere
  | some place =>
      if isLongName step.name then throw .nameTooLong
      match tree.at? place with
      | none => return tree.set place .directory
      | some _ => throw .alreadyThere

def ensureDirectory (path : List String) (tree : FileTree) : Except FileFault FileTree :=
  match tree.makeDirectory path with
  | .ok next => .ok next
  | .error e => if tree.isDirectory path then .ok tree else .error e

/-- Makes the directory at the end of some names, given last name first, and those above it
that are missing. What was made stays when a later one is refused. -/
def ensureDirectoriesUpward : List String → FileTree → Except FileFault Unit × FileTree
  | [], tree => (.ok (), tree)
  | name :: above, tree =>
      let path := (name :: above).reverse
      match tree.ensureDirectory path with
      | .ok next => (.ok (), next)
      | .error .notFound =>
          match ensureDirectoriesUpward above tree with
          | (.error e, next) => (.error e, next)
          | (.ok _, next) =>
              match next.ensureDirectory path with
              | .ok last => (.ok (), last)
              | .error e => (.error e, next)
      | .error e => (.error e, tree)

/-- Makes a directory and those above it that are missing. -/
def ensureDirectories (path : List String) (tree : FileTree) :
    Except FileFault Unit × FileTree :=
  ensureDirectoriesUpward path.reverse tree

end FileTree

end ModuleDepot
