import ModuleDepot.Archive.Layout
import ModuleDepot.EscapedPath
import ModuleDepot.SerialRange

/-!
The faults of the domain itself: bad coordinates, ranges, escaped texts and
archives. Stores, clients and services report them beside faults of their own.
-/

namespace ModuleDepot

inductive Fault where
  | coordinate (e : CoordinateError)
  | range (e : InvertedRange)
  | escape (e : EscapeError)
  | archive (e : ArchiveError)
deriving DecidableEq

namespace Fault

def message : Fault → String
  | coordinate e => "invalid module coordinate: " ++ e.message
  | range e => "invalid serial id range: " ++ e.message
  | escape e => "invalid escaped path: " ++ e.message
  | archive e => e.message

end Fault

end ModuleDepot
