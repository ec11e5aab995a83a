import ModuleDepot.Coordinate
import ModuleDepot.Moment
import ModuleDepot.SerialRange
import ModuleDepot.Version

/-!
The index of a proxy: which coordinates it serves, under which serial id, with
which manifest, and since when. Rows keep the order in which their coordinates
first came in; a coordinate that was removed comes in anew.
-/

namespace ModuleDepot

structure IndexRow where
  coordinate : Coordinate
  serial : SerialId
  manifest : String
  since : Moment
deriving DecidableEq

structure Addition where
  coordinate : Coordinate
  serial : SerialId
  manifest : String
deriving DecidableEq

structure SerialCoordinate where
  coordinate : Coordinate
  serial : SerialId
deriving DecidableEq

def SerialCoordinate.display (s : SerialCoordinate) : String :=
  s.coordinate.display ++ " (serial " ++ toString s.serial ++ ")"

structure VersionInfo where
  version : String
  time : Moment
deriving DecidableEq

structure Summary where
  sources : Nat
  versions : Nat
deriving DecidableEq

inductive IndexError where
  | notIndexed (c : Coordinate)
  | database (reason : String)
  | files (reason : String)
  | settings (reason : String)
deriving DecidableEq

def IndexError.message : IndexError → String
  | notIndexed c => "module not indexed: " ++ c.display
  | database reason => "database error: " ++ reason
  | files reason => "I/O error: " ++ reason
  | settings reason => "configuration error: " ++ reason

/-- The rows of an index, with distinct coordinates, in order of arrival. -/
structure Index where
  rows : List IndexRow
deriving DecidableEq

namespace Index

def empty : Index := ⟨[]⟩

def migrate (stored : Option Index) : Index := stored.getD empty

/-- Opens the database of an index once more, which migrates it. -/
def reopen (index : Index) : Index := migrate (some index)

def row? (index : Index) (c : Coordinate) : Option IndexRow :=
  index.rows.find? fun r => r.coordinate = c

def row (index : Index) (c : Coordinate) : Except IndexError IndexRow :=
  match index.row? c with
  | some r => .ok r
  | none => .error (.notIndexed c)

def serial? (index : Index) (c : Coordinate) : Option SerialId :=
  (index.row? c).map IndexRow.serial

def manifest (index : Index) (c : Coordinate) : Except IndexError String :=
  (index.row c).map IndexRow.manifest

def info (index : Index) (c : Coordinate) : Except IndexError VersionInfo :=
  (index.row c).map fun r => ⟨r.coordinate.version, r.since⟩

/-- Adds a row at the end, or gives the row of the same coordinate a new serial id and a
new manifest. -/
def putRow (now : Moment) (a : Addition) : List IndexRow → List IndexRow
  | [] => [⟨a.coordinate, a.serial, a.manifest, now⟩]
  | r :: rest =>
      if r.coordinate = a.coordinate then
        { r with serial := a.serial, manifest := a.manifest } :: rest
      else r :: putRow now a rest

/-- Records a module. A known coordinate keeps its place and its time. -/
def put (now : Moment) (a : Addition) (index : Index) : Index := ⟨putRow now a index.rows⟩

def setSerial (s : SerialCoordinate) (index : Index) : Except IndexError Index :=
  match index.row? s.coordinate with
  | none => .error (.notIndexed s.coordinate)
  | some _ =>
      .ok ⟨index.rows.map fun r =>
        if r.coordinate = s.coordinate then { r with serial := s.serial } else r⟩

def remove (c : Coordinate) (index : Index) : Index :=
  ⟨index.rows.filter fun r => r.coordinate ≠ c⟩

/-- The versions of a source: sorted, and equal ones in order of arrival. -/
def versions (index : Index) (source : String) : List String :=
  Version.sort ((index.rows.filter fun r => r.coordinate.source = source).map
    fun r => r.coordinate.version)

def serials (index : Index) : SerialRanges := .compress (index.rows.map IndexRow.serial)

def summary (index : Index) : Summary :=
  ⟨(index.rows.map fun r => r.coordinate.source).eraseDups.length, index.rows.length⟩

end Index

end ModuleDepot
