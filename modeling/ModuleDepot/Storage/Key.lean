import ModuleDepot.Coordinate
import ModuleDepot.EscapedPath

/-!
The keys under which archives are stored. Both halves of a coordinate are
escaped, so that keys stay apart where file names ignore case.
-/

namespace ModuleDepot

def Coordinate.archiveKey (c : Coordinate) : Except EscapeError String := do
  let source ← EscapedPath.escape c.source
  let version ← EscapedPath.escape c.version
  return source ++ "/@v/" ++ version ++ ".zip"

end ModuleDepot
