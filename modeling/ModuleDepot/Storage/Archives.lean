import ModuleDepot.Storage.FileStore
import ModuleDepot.Storage.Key

/-!
Archives by coordinate, kept as the objects of a store. Deleting an archive that
is not there is no fault.
-/

namespace ModuleDepot.FileStore

def archiveKey (c : Coordinate) : Except StorageError String :=
  c.archiveKey.mapError fun e => .domain (.escape e)

/-- Stores a coordinate's archive in the place of an older one. -/
def putArchive (around : Surroundings) (c : Coordinate) (data : ByteArray) (store : FileStore) :
    Except StorageError Unit × FileStore :=
  match archiveKey c with
  | .error e => (.error e, store)
  | .ok key => store.put around key data

def getArchive (store : FileStore) (c : Coordinate) : Except StorageError ByteArray :=
  match archiveKey c with
  | .error e => .error e
  | .ok key =>
      match store.get key with
      | .error (.notFound _) => .error (.notFound c.display)
      | result => result

/-- Makes sure that a coordinate has no archive. -/
def deleteArchive (c : Coordinate) (store : FileStore) : Except StorageError Unit × FileStore :=
  match archiveKey c with
  | .error e => (.error e, store)
  | .ok key =>
      match store.delete key with
      | (.error (.notFound _), store) => (.ok (), store)
      | result => result

end ModuleDepot.FileStore
