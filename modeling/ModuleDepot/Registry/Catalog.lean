import ModuleDepot.Index

/-!
The catalog of a registry: every coordinate that was ever registered, with the
serial id it then got. Ids only go up. Registering a known coordinate changes no
row, but it does use up an id, so that the ids of the rows may have gaps.
-/

namespace ModuleDepot

inductive CatalogError where
  | database (reason : String)
  | files (reason : String)
  | settings (reason : String)
deriving DecidableEq

def CatalogError.message : CatalogError → String
  | database reason => "database error: " ++ reason
  | files reason => "I/O error: " ++ reason
  | settings reason => "configuration error: " ++ reason

/-- The rows of a catalog, ascending by serial id, and the last id used up. -/
structure Catalog where
  rows : List SerialCoordinate
  lastUsed : SerialId
deriving DecidableEq

namespace Catalog

def empty : Catalog := ⟨[], 0⟩

def knows (catalog : Catalog) (c : Coordinate) : Bool :=
  catalog.rows.any fun r => r.coordinate = c

/-- Registers one coordinate and tells whether it was new. -/
def registerOne (catalog : Catalog) (c : Coordinate) : Except CatalogError (Bool × Catalog) :=
  match SerialId.next? catalog.lastUsed with
  | none => .error (.database "no serial ids are left")
  | some id =>
      if catalog.knows c then .ok (false, { catalog with lastUsed := id })
      else .ok (true, ⟨catalog.rows ++ [⟨c, id⟩], id⟩)

/-- Drops a coordinate that equals the one before it. -/
def dropRepeats : List Coordinate → List Coordinate
  | a :: b :: rest => if a = b then dropRepeats (b :: rest) else a :: dropRepeats (b :: rest)
  | cs => cs

/-- Registers coordinates one after another, counting the new ones. -/
def registerAll (catalog : Catalog) (added : Nat) :
    List Coordinate → Except CatalogError (Nat × Catalog)
  | [] => .ok (added, catalog)
  | c :: rest => do
      let (new, catalog) ← catalog.registerOne c
      registerAll catalog (if new then added + 1 else added) rest

/-- Registers a batch, each coordinate once and in ascending order, and tells how many were
new. -/
def register (catalog : Catalog) (batch : List Coordinate) :
    Except CatalogError (Nat × Catalog) :=
  catalog.registerAll 0 (dropRepeats (Coordinate.sort batch))

/-- Every registered coordinate, ascending by serial id. -/
def all (catalog : Catalog) : List SerialCoordinate := catalog.rows

/-- The registered coordinates whose serial id is not held, ascending by serial id. -/
def missing (catalog : Catalog) (held : SerialRanges) : List SerialCoordinate :=
  catalog.rows.filter fun r => !held.contains r.serial

end Catalog

end ModuleDepot
