import ModuleDepot.Proxy.Call

/-!
A proxy's own state, and how it answers the calls of its procedures. Calls that
leave the proxy, over the network or to the registry, are answered by what stands
outside.
-/

namespace ModuleDepot.Proxy

/-- The state of a proxy. The clock counts nanoseconds and moves with every record. -/
structure State where
  index : Index
  store : FileStore
  problems : Problems
  counts : Counts
  clock : Nat

/-- What stands outside a proxy: the network and a registry, with a state of their own. -/
structure Outside (σ : Type) where
  exchange : Http.Request → σ → Option Http.Response × σ
  askRegistry : SerialRanges → σ → Except RegistryError (List SerialCoordinate) × σ

namespace State

def start (store : FileStore) : State := ⟨.empty, store, .empty, .zero, 0⟩

def now (s : State) : Moment := .ofNanos s.clock

def tick (s : State) : State := { s with clock := s.clock + 1 }

def freshName (s : State) : String := Moment.padded 32 s.clock

def answer {σ : Type} (outside : Outside σ) : (c : Call) → State × σ → Answer c × State × σ
  | .findSerial c, (s, w) => (.ok (s.index.serial? c), s, w)
  | .putRow a, (s, w) => (.ok (), { s with index := s.index.put s.now a }.tick, w)
  | .setSerial r, (s, w) =>
      match s.index.setSerial r with
      | .ok index => (.ok (), { s with index }, w)
      | .error e => (.error e, s, w)
  | .removeRow c, (s, w) => (.ok (), { s with index := s.index.remove c }, w)
  | .heldSerials, (s, w) => (.ok s.index.serials, s, w)
  | .findManifest c, (s, w) => (s.index.manifest c, s, w)
  | .findInfo c, (s, w) => (s.index.info c, s, w)
  | .listVersions source, (s, w) => (.ok (s.index.versions source), s, w)
  | .summarise, (s, w) => (.ok s.index.summary, s, w)
  | .checkIndex, (s, w) => (.ok (), s, w)
  | .putArchive c data, (s, w) =>
      let (done, store) := s.store.putArchive s.freshName c data
      (done, { s with store }.tick, w)
  | .getArchive c, (s, w) => (s.store.getArchive c, s, w)
  | .deleteArchive c, (s, w) =>
      let (done, store) := s.store.deleteArchive c
      (done, { s with store }, w)
  | .checkStore, (s, w) => (s.store.health, s, w)
  | .exchange r, (s, w) =>
      let (response, w) := outside.exchange r w
      (response, s, w)
  | .askRegistry held, (s, w) =>
      let (needed, w) := outside.askRegistry held w
      (needed, s, w)
  | .reportProblem c message, (s, w) =>
      ((), { s with problems := s.problems.set ⟨c, s.now, message⟩ }.tick, w)
  | .findProblem c, (s, w) => (s.problems.get? c, s, w)
  | .listProblems, (s, w) => (s.problems.list, s, w)
  | .count counter, (s, w) => ((), { s with counts := s.counts.bump counter }, w)
  | .readCounts, (s, w) => (s.counts, s, w)

def perform {σ : Type} (outside : Outside σ) {α : Type} (task : Task α) (s : State) (w : σ) :
    α × State × σ :=
  task.run (answer outside) (s, w)

end State

end ModuleDepot.Proxy
