import ModuleDepot.Coordinate
import ModuleDepot.Moment

/-!
The record of modules that could not be brought into the index: for each
coordinate the latest problem, and nothing else.
-/

namespace ModuleDepot

structure Problem where
  coordinate : Coordinate
  time : Moment
  message : String
deriving DecidableEq

/-- The latest problem of each coordinate that ever had one. -/
structure Problems where
  entries : List Problem
deriving DecidableEq

namespace Problems

def empty : Problems := ⟨[]⟩

def put (p : Problem) : List Problem → List Problem
  | [] => [p]
  | q :: rest => if q.coordinate = p.coordinate then p :: rest else q :: put p rest

/-- Records a problem; it replaces an earlier one of the same coordinate. -/
def set (ps : Problems) (p : Problem) : Problems := ⟨put p ps.entries⟩

def get? (ps : Problems) (c : Coordinate) : Option Problem :=
  ps.entries.find? fun p => p.coordinate = c

/-- Problems are listed by source, and within a source by time. -/
def order (a b : Problem) : Ordering :=
  (compare a.coordinate.source b.coordinate.source).then (compare a.time.nanos b.time.nanos)

def list (ps : Problems) : List Problem :=
  ps.entries.mergeSort fun a b => (order a b).isLE

def size (ps : Problems) : Nat := ps.entries.length

end Problems

end ModuleDepot
