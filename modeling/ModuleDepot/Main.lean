import ModuleDepot.Launch

/-!
The command line of both programs. It looks at the files that a call is about, calls
the program on them, and then prints what it says and makes the files that it made.
Which of the programs is meant is told by the name it is called under.
-/

namespace ModuleDepot.Main

def variableOf (text : String) : Option (String × String) :=
  (Text.cutFirst '=' text.toList).map fun (name, value) =>
    (String.ofList name, String.ofList value)

def readVariables : IO (List (String × String)) := do
  let data ← IO.FS.readBinFile "/proc/self/environ"
  let texts := ((Bytes.lossyText data).toList.splitOn '\x00').map String.ofList
  return texts.filterMap variableOf

/-- The place that a path leads to when no link stands in the way. -/
def placeOf (path : List String) : Location :=
  (FileTree.names path).foldl
    (fun place name => if name = ".." then place.dropLast else place ++ [name]) []

def systemPath (place : Location) : String := "/" ++ "/".intercalate place

/-- What stands at a place. Links are seen as what they lead to. -/
def nodeAt (place : Location) : IO (Option Node) := do
  let path := (← IO.currentDir) / systemPath place
  if ← path.isDir then return some .directory
  if ← path.pathExists then return some (.file (← IO.FS.readBinFile path))
  return none

/-- A tree with all that stands on the way to some paths. -/
def observe (here : List String) (paths : List String) : IO FileTree := do
  let mut tree := FileTree.empty
  for path in here :: paths.map (FileTree.stepsFrom here) do
    let place := placeOf path
    for depth in List.range place.length do
      let above := place.take (depth + 1)
      if (tree.at? above).isNone then
        if let some node ← nodeAt above then tree := tree.set above node
  return tree

/-- Makes what stands in a tree and did not stand in an older one. -/
def make (older newer : FileTree) : IO Unit := do
  for (place, node) in newer.entries.mergeSort fun a b => a.1.length ≤ b.1.length do
    if older.at? place ≠ some node then
      match node with
      | .directory => IO.FS.createDirAll (systemPath place)
      | .file data => IO.FS.writeBinFile (systemPath place) data
      | .link _ _ => pure ()

def calledAs : IO String := do
  return (← IO.appPath).fileName.getD ""

def run (arguments : List String) : IO UInt32 := do
  let program := Program.ofName (← calledAs)
  let here := FileTree.steps (← IO.currentDir).toString
  let bare : Surroundings := ⟨.empty, here, ← readVariables⟩
  let first ← observe here (program.looksAt bare arguments)
  let tree ← observe here (program.looksAt { bare with tree := first } arguments)
  let ending := program.call { bare with tree } arguments
  make tree ending.tree
  (← IO.getStdout).putStr ending.output
  (← IO.getStderr).putStr ending.complaint
  return ending.status.toUInt32

end ModuleDepot.Main

def main (arguments : List String) : IO UInt32 := ModuleDepot.Main.run arguments
