import ModuleDepot.Archive.Layout
import ModuleDepot.Origin.OpenProxy
import ModuleDepot.Proxy.Call

/-!
Keeping an index in step with a registry. A module that is missing is fetched,
brought into the layout, stored and only then indexed; one that is indexed under
another serial id is given the new one. What fails is recorded and tried again in
the next cycle.
-/

namespace ModuleDepot.Proxy

inductive ReconcileError where
  | index (e : IndexError)
  | storage (e : StorageError)
  | origin (e : OriginError)
  | domain (e : Fault)
deriving DecidableEq

/-- The text of a failure, which is that of its cause. -/
def ReconcileError.message : ReconcileError → String
  | index e => e.message
  | storage e => e.message
  | origin e => e.message
  | domain e => e.message

inductive Outcome where
  | skipped
  | updated
  | downloaded (source : ArchiveSource)
deriving DecidableEq

structure CycleReport where
  needed : Nat
  skipped : Nat
  updated : Nat
  downloaded : Nat
  failed : Nat
  aborted : Bool
deriving DecidableEq

namespace CycleReport

/-- The report of a cycle that has not begun on its modules. -/
def start (needed : Nat) : CycleReport := ⟨needed, 0, 0, 0, 0, false⟩

/-- The report of a cycle that could not find out what is needed. -/
def abandoned : CycleReport := ⟨0, 0, 0, 0, 0, true⟩

def add (report : CycleReport) : Except ReconcileError Outcome → CycleReport
  | .ok .skipped => { report with skipped := report.skipped + 1 }
  | .ok .updated => { report with updated := report.updated + 1 }
  | .ok (.downloaded _) => { report with downloaded := report.downloaded + 1 }
  | .error _ => { report with failed := report.failed + 1 }

end CycleReport

/-- How modules are fetched: the steps of the resolution, and the open proxy from which
public modules are taken. -/
structure Reconciler where
  transforms : List Transform
  openProxy : Option OpenProxy
deriving DecidableEq

namespace Reconciler

/-- Fetches an archive from the module's own host and brings it into the layout. -/
def fetchHome (r : Reconciler) (c : Coordinate) : Task (Except ReconcileError ByteArray) := do
  match ← online (resolve r.transforms c) with
  | .error e => return .error (.origin e)
  | .ok request =>
      match ← online (request.fetchOver clientTransports) with
      | .error e => return .error (.origin e)
      | .ok raw => return (Blob.normalise c raw).mapError fun e => .domain (.archive e)

def openProxyFor (r : Reconciler) (c : Coordinate) : Option OpenProxy :=
  if isPublic r.transforms c then r.openProxy else none

/-- An archive in the layout, and where it was taken from. -/
def download (r : Reconciler) (c : Coordinate) :
    Task (Except ReconcileError (ByteArray × ArchiveSource)) :=
  match r.openProxyFor c with
  | some p => do
      match ← online (p.archive c) with
      | .error e => return .error (.origin e)
      | .ok data => return .ok (data, .openProxy)
  | none => do
      match ← r.fetchHome c with
      | .error e => return .error e
      | .ok data => return .ok (data, .home)

def impliedManifest (c : Coordinate) : String := "module " ++ c.source ++ "\n"

def manifestOf (c : Coordinate) (data : ByteArray) : Except ReconcileError String :=
  match Blob.manifest data with
  | .error e => .error (.domain (.archive e))
  | .ok found => .ok (found.getD (impliedManifest c))

def takeIn (s : SerialCoordinate) (data : ByteArray) (source : ArchiveSource) :
    Task (Except ReconcileError Outcome) :=
  match manifestOf s.coordinate data with
  | .error e => return .error e
  | .ok manifest => do
      match ← ask (.putArchive s.coordinate data) with
      | .error e => return .error (.storage e)
      | .ok _ =>
          match ← ask (.putRow ⟨s.coordinate, s.serial, manifest⟩) with
          | .error e => return .error (.index e)
          | .ok _ =>
              let _ ← ask (.count (.downloads source))
              return .ok (.downloaded source)

/-- Brings one module into the index under its serial id. -/
def reconcile (r : Reconciler) (s : SerialCoordinate) :
    Task (Except ReconcileError Outcome) := do
  match ← ask (.findSerial s.coordinate) with
  | .error e => return .error (.index e)
  | .ok (some held) =>
      if held = s.serial then return .ok .skipped
      else
        match ← ask (.setSerial s) with
        | .error e => return .error (.index e)
        | .ok _ =>
            let _ ← ask (.count .renumberings)
            return .ok .updated
  | .ok none =>
      match ← r.download s.coordinate with
      | .error e => return .error e
      | .ok (data, source) => takeIn s data source

def noteFailure (c : Coordinate) : Except ReconcileError Outcome → Task Unit
  | .ok _ => return ()
  | .error e => do
      let _ ← ask (.count .failures)
      ask (.reportProblem c e.message)

def reconcileAll (r : Reconciler) (report : CycleReport) :
    List SerialCoordinate → Task CycleReport
  | [] => return report
  | s :: rest => do
      let result ← r.reconcile s
      noteFailure s.coordinate result
      reconcileAll r (report.add result) rest

def abandon : Task CycleReport := do
  let _ ← ask (.count .cycleFailures)
  return .abandoned

/-- Asks the registry what is missing, and brings it into the index. -/
def runOnce (r : Reconciler) : Task CycleReport := do
  let _ ← ask (.count .cycles)
  match ← ask .heldSerials with
  | .error _ => abandon
  | .ok held =>
      match ← ask (.askRegistry held) with
      | .error _ => abandon
      | .ok needed => r.reconcileAll (.start needed.length) needed

end Reconciler

end ModuleDepot.Proxy
