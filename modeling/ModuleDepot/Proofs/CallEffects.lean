import Mathlib.Logic.Function.Basic
import ModuleDepot.Proofs.ArchiveKeys
import ModuleDepot.Proofs.IndexRows
import ModuleDepot.Proofs.ProcedureRuns
import ModuleDepot.Proxy.Reconciler
import ModuleDepot.Proxy.State

/-!
What the calls of a proxy do to its index and to its archives. The archives are
seen as objects by key, and the network, the registry and the records may answer
anything. Any call may also fail, and then it changes nothing.
-/

namespace ModuleDepot

/-- The objects of a store by their keys. -/
abbrev Objects := String → Option ByteArray

namespace Objects

def putArchive (c : Coordinate) (data : ByteArray) (objects : Objects) :
    Except StorageError Objects := do
  return Function.update objects (← FileStore.archiveKey c) (some data)

def deleteArchive (c : Coordinate) (objects : Objects) : Except StorageError Objects := do
  return Function.update objects (← FileStore.archiveKey c) none

def getArchive (objects : Objects) (c : Coordinate) : Except StorageError ByteArray :=
  match FileStore.archiveKey c with
  | .error e => .error e
  | .ok key =>
      match objects key with
      | some data => .ok data
      | none => .error (.notFound c.display)

/-- The archive that is found for a coordinate. -/
def archive? (objects : Objects) (c : Coordinate) : Option ByteArray :=
  (objects.getArchive c).toOption

theorem archiveKey_of_ok {c : Coordinate} {key : String} (found : c.archiveKey = .ok key) :
    FileStore.archiveKey c = .ok key := by
  rw [FileStore.archiveKey, found]
  rfl

theorem archiveKey_of_error {c : Coordinate} {e : EscapeError} (failed : c.archiveKey = .error e) :
    FileStore.archiveKey c = .error (.domain (.escape e)) := by
  rw [FileStore.archiveKey, failed]
  rfl

theorem archive?_of_ok {c : Coordinate} {key : String} (found : c.archiveKey = .ok key)
    (objects : Objects) : objects.archive? c = objects key := by
  simp only [archive?, getArchive, archiveKey_of_ok found]
  cases objects key <;> rfl

theorem archive?_of_error {c : Coordinate} {e : EscapeError} (failed : c.archiveKey = .error e)
    (objects : Objects) : objects.archive? c = none := by
  rw [archive?, getArchive, archiveKey_of_error failed]
  rfl

/-- Accepted coordinates have keys of their own, so that a change under one key shows in one
coordinate only. -/
theorem archive?_update {c other : Coordinate} (accepted : c.Accepted)
    (otherAccepted : other.Accepted) {key : String} (found : c.archiveKey = .ok key)
    (objects : Objects) (content : Option ByteArray) :
    archive? (Function.update objects key content) other =
      if other = c then content else objects.archive? other := by
  by_cases same : other = c
  · subst same
    rw [archive?_of_ok found, if_pos rfl, Function.update_self]
  · rw [if_neg same]
    cases otherFound : other.archiveKey with
    | error e => rw [archive?_of_error otherFound, archive?_of_error otherFound]
    | ok otherKey =>
        -- The escaped form tells source and version apart, and capitals from small letters.
        have different : otherKey ≠ key := by
          rintro rfl
          exact same (Coordinate.archiveKey_injective otherAccepted accepted otherFound found)
        rw [archive?_of_ok otherFound, archive?_of_ok otherFound,
          Function.update_of_ne different]

theorem archive?_putArchive {c other : Coordinate} (accepted : c.Accepted)
    (otherAccepted : other.Accepted) {data : ByteArray} {objects next : Objects}
    (stored : objects.putArchive c data = .ok next) :
    next.archive? other = if other = c then some data else objects.archive? other := by
  cases found : c.archiveKey with
  | error e =>
      rw [putArchive, archiveKey_of_error found] at stored
      cases stored
  | ok key =>
      rw [putArchive, archiveKey_of_ok found] at stored
      cases stored
      exact archive?_update accepted otherAccepted found objects (some data)

theorem archive?_deleteArchive {c other : Coordinate} (accepted : c.Accepted)
    (otherAccepted : other.Accepted) {objects next : Objects}
    (deleted : objects.deleteArchive c = .ok next) :
    next.archive? other = if other = c then none else objects.archive? other := by
  cases found : c.archiveKey with
  | error e =>
      rw [deleteArchive, archiveKey_of_error found] at deleted
      cases deleted
  | ok key =>
      rw [deleteArchive, archiveKey_of_ok found] at deleted
      cases deleted
      exact archive?_update accepted otherAccepted found objects none

/-- Deleting only fails where there is no key, and so no archive. -/
theorem archive?_of_deleteArchive_error {c : Coordinate} {objects : Objects} {e : StorageError}
    (failed : objects.deleteArchive c = .error e) : objects.archive? c = none := by
  cases found : c.archiveKey with
  | error e => exact archive?_of_error found objects
  | ok key =>
      rw [deleteArchive, archiveKey_of_ok found] at failed
      cases failed

end Objects

namespace Proxy

open Procedure

/-! ## The services -/

/-- A change that is made, or refused and not made. -/
def Attempts {ε σ : Type} (changed : Except ε σ) (answer : Except ε Unit) (s t : σ) : Prop :=
  match changed with
  | .ok u => answer = .ok () ∧ t = u
  | .error e => answer = .error e ∧ t = s

theorem attempts_cases {ε σ : Type} {changed : Except ε σ} {answer : Except ε Unit} {s t : σ}
    (attempted : Attempts changed answer s t) :
    (∃ failure, changed = .error failure ∧ answer = .error failure) ∧ t = s ∨
      answer = .ok () ∧ changed = .ok t := by
  cases changed with
  | error failure => exact Or.inl ⟨⟨failure, rfl, attempted.1⟩, attempted.2⟩
  | ok u => exact Or.inr ⟨attempted.1, congrArg Except.ok attempted.2.symm⟩

/-- What an index answers, and what it becomes. The time of a new row is not told. -/
def indexServes : Service Call Answer Index
  | .findSerial c, index, answer, next => answer = .ok (index.serial? c) ∧ next = index
  | .putRow a, index, answer, next => answer = .ok () ∧ ∃ now, next = index.put now a
  | .setSerial s, index, answer, next => Attempts (index.setSerial s) answer index next
  | .removeRow c, index, answer, next => answer = .ok () ∧ next = index.remove c
  | .heldSerials, index, answer, next => answer = .ok index.serials ∧ next = index
  | .findManifest c, index, answer, next => answer = index.manifest c ∧ next = index
  | .findInfo c, index, answer, next => answer = index.info c ∧ next = index
  | .listVersions source, index, answer, next =>
      answer = .ok (index.versions source) ∧ next = index
  | .summarise, index, answer, next => answer = .ok index.summary ∧ next = index
  | .checkIndex, index, answer, next => answer = .ok () ∧ next = index
  | _, index, _, next => next = index

/-- What a store of archives answers, and what it becomes. -/
def objectsServe : Service Call Answer Objects
  | .putArchive c data, objects, answer, next =>
      Attempts (objects.putArchive c data) answer objects next
  | .deleteArchive c, objects, answer, next =>
      Attempts (objects.deleteArchive c) answer objects next
  | .getArchive c, objects, answer, next => answer = objects.getArchive c ∧ next = objects
  | .checkStore, objects, answer, next => answer = .ok () ∧ next = objects
  | _, objects, _, next => next = objects

def Failed : (c : Call) → Answer c → Prop
  | .findSerial _, answer => ∃ e, answer = .error e
  | .putRow _, answer => ∃ e, answer = .error e
  | .setSerial _, answer => ∃ e, answer = .error e
  | .removeRow _, answer => ∃ e, answer = .error e
  | .heldSerials, answer => ∃ e, answer = .error e
  | .findManifest _, answer => ∃ e, answer = .error e
  | .findInfo _, answer => ∃ e, answer = .error e
  | .listVersions _, answer => ∃ e, answer = .error e
  | .summarise, answer => ∃ e, answer = .error e
  | .checkIndex, answer => ∃ e, answer = .error e
  | .putArchive _ _, answer => ∃ e, answer = .error e
  | .getArchive _, answer => ∃ e, answer = .error e
  | .deleteArchive _, answer => ∃ e, answer = .error e
  | .checkStore, answer => ∃ e, answer = .error e
  | .askRegistry _, answer => ∃ e, answer = .error e
  | .exchange _, answer => answer = none
  | _, _ => False

/-- A service of which any call may fail, and then changes nothing. -/
def orFails {σ : Type} (service : Service Call Answer σ) : Service Call Answer σ :=
  fun c s answer t => service c s answer t ∨ Failed c answer ∧ t = s

/-- What a proxy holds: its index, and its archives by key. -/
@[ext] structure Depot where
  index : Index
  objects : Objects

namespace Depot

def empty : Depot := ⟨.empty, fun _ => none⟩

def archive? (d : Depot) (c : Coordinate) : Option ByteArray := d.objects.archive? c

/-- What index and archives answer, and what they become. -/
def serves : Service Call Answer Depot := fun c d answer e =>
  indexServes c d.index answer e.index ∧ objectsServe c d.objects answer e.objects

end Depot

/-! ## Which calls change what -/

def Call.changesIndex : Call → Bool
  | .putRow _ => true
  | .setSerial _ => true
  | .removeRow _ => true
  | _ => false

def Call.changesObjects : Call → Bool
  | .putArchive _ _ => true
  | .deleteArchive _ => true
  | _ => false

def Call.concernsArchives : Call → Bool
  | .putArchive _ _ => true
  | .getArchive _ => true
  | .deleteArchive _ => true
  | .checkStore => true
  | _ => false

variable {c : Call} {answer : Answer c}

theorem index_unchanged {index next : Index} (quiet : c.changesIndex = false)
    (served : indexServes c index answer next) : next = index := by
  cases c with
  | putRow | setSerial | removeRow => cases quiet
  | findSerial | heldSerials | findManifest | findInfo | listVersions | summarise | checkIndex =>
      exact served.2
  | _ => exact served

/-- An index that may fail only changes by a call that changes it and does not fail. -/
theorem index_still {index next : Index} (served : orFails indexServes c index answer next)
    (quiet : c.changesIndex = false ∨ Failed c answer) : next = index := by
  rcases served with served | ⟨_, same⟩
  · cases c with
    | putRow | removeRow =>
        obtain ⟨rfl, _⟩ := served
        simp [Call.changesIndex, Failed] at quiet
    | setSerial =>
        rcases attempts_cases served with ⟨_, same⟩ | ⟨rfl, _⟩
        · exact same
        · simp [Call.changesIndex, Failed] at quiet
    | _ => exact @index_unchanged _ answer index next rfl served
  · exact same

theorem objects_unchanged {objects next : Objects} (quiet : c.changesObjects = false)
    (served : objectsServe c objects answer next) : next = objects := by
  cases c with
  | putArchive | deleteArchive => cases quiet
  | getArchive | checkStore => exact served.2
  | _ => exact served

/-- A depot only changes by the calls that change its index or its archives. -/
theorem depot_unchanged {d e : Depot} (quietIndex : c.changesIndex = false)
    (quietObjects : c.changesObjects = false) (served : orFails Depot.serves c d answer e) :
    e = d := by
  rcases served with ⟨indexServed, objectsServed⟩ | ⟨_, same⟩
  · exact Depot.ext (index_unchanged quietIndex indexServed)
      (objects_unchanged quietObjects objectsServed)
  · exact same

/-! ## What a call leaves of a depot -/

namespace Depot

variable {d e : Depot}

theorem served_findSerial {c : Coordinate} {answer : Answer (.findSerial c)}
    (served : orFails serves (.findSerial c) d answer e) :
    e = d ∧ ((∃ failure, answer = .error failure) ∨ answer = .ok (d.index.serial? c)) := by
  have same := depot_unchanged rfl rfl served
  rcases served with ⟨⟨found, _⟩, _⟩ | ⟨failed, _⟩
  · exact ⟨same, Or.inr found⟩
  · exact ⟨same, Or.inl failed⟩

theorem served_putRow {a : Addition} {answer : Answer (.putRow a)}
    (served : orFails serves (.putRow a) d answer e) :
    (∃ failure, answer = .error failure) ∧ e = d ∨
      answer = .ok () ∧ ∃ now, e = ⟨d.index.put now a, d.objects⟩ := by
  rcases served with ⟨⟨made, now, index⟩, objects⟩ | failed
  · exact Or.inr ⟨made, now, Depot.ext index (objects_unchanged rfl objects)⟩
  · exact Or.inl failed

theorem served_setSerial {s : SerialCoordinate} {answer : Answer (.setSerial s)}
    (served : orFails serves (.setSerial s) d answer e) :
    (∃ failure, answer = .error failure) ∧ e = d ∨
      answer = .ok () ∧ ∃ index, d.index.setSerial s = .ok index ∧ e = ⟨index, d.objects⟩ := by
  rcases served with ⟨attempted, objects⟩ | failed
  · have same := objects_unchanged rfl objects
    rcases attempts_cases attempted with ⟨⟨failure, _, refused⟩, unchanged⟩ | ⟨made, changed⟩
    · exact Or.inl ⟨⟨failure, refused⟩, Depot.ext unchanged same⟩
    · exact Or.inr ⟨made, e.index, changed, Depot.ext rfl same⟩
  · exact Or.inl failed

theorem served_removeRow {c : Coordinate} {answer : Answer (.removeRow c)}
    (served : orFails serves (.removeRow c) d answer e) :
    (∃ failure, answer = .error failure) ∧ e = d ∨
      answer = .ok () ∧ e = ⟨d.index.remove c, d.objects⟩ := by
  rcases served with ⟨⟨made, index⟩, objects⟩ | failed
  · exact Or.inr ⟨made, Depot.ext index (objects_unchanged rfl objects)⟩
  · exact Or.inl failed

theorem served_putArchive {c : Coordinate} {data : ByteArray}
    {answer : Answer (.putArchive c data)}
    (served : orFails serves (.putArchive c data) d answer e) :
    (∃ failure, answer = .error failure) ∧ e = d ∨
      answer = .ok () ∧ ∃ objects, d.objects.putArchive c data = .ok objects ∧
        e = ⟨d.index, objects⟩ := by
  rcases served with ⟨index, attempted⟩ | failed
  · have same := index_unchanged rfl index
    rcases attempts_cases attempted with ⟨⟨failure, _, refused⟩, unchanged⟩ | ⟨made, stored⟩
    · exact Or.inl ⟨⟨failure, refused⟩, Depot.ext same unchanged⟩
    · exact Or.inr ⟨made, e.objects, stored, Depot.ext same rfl⟩
  · exact Or.inl failed

theorem served_deleteArchive {c : Coordinate} {answer : Answer (.deleteArchive c)}
    (served : orFails serves (.deleteArchive c) d answer e) :
    (∃ failure, answer = .error failure) ∧ e = d ∨
      answer = .ok () ∧ ∃ objects, d.objects.deleteArchive c = .ok objects ∧
        e = ⟨d.index, objects⟩ := by
  rcases served with ⟨index, attempted⟩ | failed
  · have same := index_unchanged rfl index
    rcases attempts_cases attempted with ⟨⟨failure, _, refused⟩, unchanged⟩ | ⟨made, deleted⟩
    · exact Or.inl ⟨⟨failure, refused⟩, Depot.ext same unchanged⟩
    · exact Or.inr ⟨made, e.objects, deleted, Depot.ext same rfl⟩
  · exact Or.inl failed

end Depot

/-! ## Procedures that only use the network -/

def Call.isExchange : Call → Bool
  | .exchange _ => true
  | _ => false

theorem Call.quiet_of_isExchange {c : Call} (network : c.isExchange = true) :
    c.changesIndex = false ∧ c.changesObjects = false := by
  cases c with
  | exchange r => exact ⟨rfl, rfl⟩
  | _ => cases network

theorem only_online {α : Type} (p : Http.Online α) :
    Only (fun c => c.isExchange = true) (online p) :=
  only_embed Call.exchange _ p fun _ => rfl

/-- However an archive is fetched, only the network is used. -/
theorem only_download (r : Reconciler) (c : Coordinate) :
    Only (fun c => c.isExchange = true) (r.download c) := by
  unfold Reconciler.download
  cases r.openProxyFor c with
  | some p =>
      apply only_bind (only_online (p.archive c))
      intro fetched
      cases fetched <;> exact only_pure _ _
  | none =>
      have home : Only (fun c => c.isExchange = true) (r.fetchHome c) := by
        apply only_bind (only_online (resolve r.transforms c))
        intro resolved
        cases resolved with
        | error e => exact only_pure _ _
        | ok request =>
            apply only_bind (only_online (request.fetchOver clientTransports))
            intro fetched
            cases fetched <;> exact only_pure _ _
      apply only_bind home
      intro fetched
      cases fetched <;> exact only_pure _ _

/-! ## The running proxy -/

/-- A proxy's own index is such a service. -/
theorem indexServes_answer {σ : Type} (outside : Outside σ) (c : Call) (state : State × σ) :
    indexServes c state.1.index (State.answer outside c state).1
      (State.answer outside c state).2.1.index := by
  rcases state with ⟨s, w⟩
  cases c with
  | putRow a => exact ⟨rfl, s.now, rfl⟩
  | setSerial r =>
      simp only [State.answer, indexServes]
      cases s.index.setSerial r <;> exact ⟨rfl, rfl⟩
  | findSerial | removeRow | heldSerials | findManifest | findInfo | listVersions | summarise
  | checkIndex => exact ⟨rfl, rfl⟩
  | _ => rfl

/-! ## A module for concrete runs -/

namespace Sample

/-- An archive without entries. -/
def archive : ByteArray := Archive.Container.write ⟨[]⟩

/-- An address on the host of an open proxy. -/
def address (segments : List (List Char)) : Url :=
  ⟨"http".toList, [], none, some (.domain "p".toList), none, .segments segments, none, none⟩

def reconciler : Reconciler := ⟨[], some ⟨address [[]]⟩⟩

def wanted : SerialCoordinate := ⟨⟨"m", "v"⟩, 1⟩

def request : Http.Request :=
  ⟨"GET", address ["m".toList, "@v".toList, "v.zip".toList], [], ""⟩

def addition : Addition := ⟨wanted.coordinate, wanted.serial, "module m\n"⟩

/-- The archive is stored, and the module is not yet indexed. -/
def stored : Depot := ⟨.empty, Function.update (fun _ => none) "m/@v/v.zip" (some archive)⟩

end Sample

end Proxy

end ModuleDepot
