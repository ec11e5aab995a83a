import ModuleDepot.Http.Exchange
import ModuleDepot.Index
import ModuleDepot.Problem
import ModuleDepot.Proxy.Counter
import ModuleDepot.Registry.Client
import ModuleDepot.Storage.Archives

/-!
The calls that a proxy's procedures make: on its index, on its archives, over
the network, and on its records. Index, archives, network and registry may refuse
any call.
-/

namespace ModuleDepot.Proxy

inductive Call where
  | findSerial (c : Coordinate)
  | putRow (a : Addition)
  | setSerial (s : SerialCoordinate)
  | removeRow (c : Coordinate)
  | heldSerials
  | findManifest (c : Coordinate)
  | findInfo (c : Coordinate)
  | listVersions (source : String)
  | summarise
  | checkIndex
  | putArchive (c : Coordinate) (data : ByteArray)
  | getArchive (c : Coordinate)
  | deleteArchive (c : Coordinate)
  | checkStore
  | exchange (r : Http.Request)
  | askRegistry (held : SerialRanges)
  | reportProblem (c : Coordinate) (message : String)
  | findProblem (c : Coordinate)
  | listProblems
  | count (counter : Counter)
  | readCounts

abbrev Answer : Call → Type
  | .findSerial _ => Except IndexError (Option SerialId)
  | .putRow _ => Except IndexError Unit
  | .setSerial _ => Except IndexError Unit
  | .removeRow _ => Except IndexError Unit
  | .heldSerials => Except IndexError SerialRanges
  | .findManifest _ => Except IndexError String
  | .findInfo _ => Except IndexError VersionInfo
  | .listVersions _ => Except IndexError (List String)
  | .summarise => Except IndexError Summary
  | .checkIndex => Except IndexError Unit
  | .putArchive _ _ => Except StorageError Unit
  | .getArchive _ => Except StorageError ByteArray
  | .deleteArchive _ => Except StorageError Unit
  | .checkStore => Except StorageError Unit
  | .exchange _ => Option Http.Response
  | .askRegistry _ => Except RegistryError (List SerialCoordinate)
  | .reportProblem _ _ => Unit
  | .findProblem _ => Option Problem
  | .listProblems => List Problem
  | .count _ => Unit
  | .readCounts => Counts

abbrev Task := Procedure Call Answer

def ask (c : Call) : Task (Answer c) := Procedure.call c

/-- Runs a procedure that only uses the network as one of the proxy. -/
def online {α : Type} (p : Http.Online α) : Task α :=
  p.embed Call.exchange fun _ answer => answer

end ModuleDepot.Proxy
