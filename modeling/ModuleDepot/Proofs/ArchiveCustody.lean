import ModuleDepot.Proofs.CallEffects
import ModuleDepot.Proxy.Router

/-!
What is indexed is held. Bringing a module in stores its archive before its row is
put, and removing it takes the row away before the archive, so that whatever fails,
and wherever work is left off, no row stands without its archive.
-/

namespace ModuleDepot.Proxy

open Procedure

/-- What a row vouches for: its archive is held, can be read, and has the row's manifest. The
manifest of an archive without one only names the source. -/
def Depot.Backs (d : Depot) (row : IndexRow) : Prop :=
  ∃ data archive, d.archive? row.coordinate = some data ∧
    Archive.Container.read data = .ok archive ∧
    (archive.manifest = .ok (some row.manifest) ∨
      archive.manifest = .ok none ∧ row.manifest = "module " ++ row.coordinate.source ++ "\n")

/-- Work on a depot: a module is brought in under a serial id, or removed. -/
inductive Operation where
  | bringIn (r : Reconciler) (s : SerialCoordinate)
  | remove (c : Coordinate)

namespace Operation

def coordinate : Operation → Coordinate
  | bringIn _ s => s.coordinate
  | remove c => c

/-- The calls of an operation, without its result. -/
def task : Operation → Task Unit
  | bringIn r s => do let _ ← r.reconcile s
  | remove c => do let _ ← removeModule c

end Operation

theorem manifestOf_eq_ok_iff (c : Coordinate) (data : ByteArray) (manifest : String) :
    Reconciler.manifestOf c data = .ok manifest ↔
      ∃ archive, Archive.Container.read data = .ok archive ∧
        (archive.manifest = .ok (some manifest) ∨
          archive.manifest = .ok none ∧ manifest = "module " ++ c.source ++ "\n") := by
  unfold Reconciler.manifestOf Blob.manifest
  cases readable : Archive.Container.read data with
  | error e => simp [bind, Except.bind]
  | ok archive =>
      cases found : archive.manifest with
      | error e => simp [bind, Except.bind, found]
      | ok entry =>
          cases entry with
          | none => simp [bind, Except.bind, found, Reconciler.impliedManifest, eq_comm]
          | some text => simp [bind, Except.bind, found]

namespace Depot

/-- Every row is that of an accepted coordinate, and has the manifest of the archive held for
it. Only accepted coordinates have archives of their own, so acceptance is kept along. -/
def Sound (d : Depot) : Prop :=
  ∀ row ∈ d.index.rows, row.coordinate.Accepted ∧
    ∃ data, d.archive? row.coordinate = some data ∧
      Reconciler.manifestOf row.coordinate data = .ok row.manifest

variable {d : Depot}

theorem sound_empty : empty.Sound := by
  intro row member
  cases member

theorem backs_of_sound (sound : d.Sound) {row : IndexRow} (member : row ∈ d.index.rows) :
    d.Backs row := by
  obtain ⟨_, data, held, manifest⟩ := sound row member
  obtain ⟨archive, readable, found⟩ := (manifestOf_eq_ok_iff _ _ _).mp manifest
  exact ⟨data, archive, held, readable, found⟩

/-! ## What each change keeps -/

theorem sound_put (sound : d.Sound) (a : Addition) (accepted : a.coordinate.Accepted)
    {data : ByteArray} (held : d.archive? a.coordinate = some data)
    (manifest : Reconciler.manifestOf a.coordinate data = .ok a.manifest) (now : Moment) :
    Sound ⟨d.index.put now a, d.objects⟩ := by
  intro row member
  rcases Index.mem_putRow member with old | ⟨sameCoordinate, _, sameManifest⟩
  · exact sound row old
  · rw [sameCoordinate, sameManifest]
    exact ⟨accepted, data, held, manifest⟩

theorem sound_setSerial (sound : d.Sound) {s : SerialCoordinate} {index : Index}
    (changed : d.index.setSerial s = .ok index) : Sound ⟨index, d.objects⟩ := by
  intro row member
  obtain ⟨old, present, sameCoordinate, sameManifest, _⟩ := Index.mem_setSerial changed member
  rw [sameCoordinate, sameManifest]
  exact sound old present

theorem sound_remove (sound : d.Sound) (c : Coordinate) :
    Sound ⟨d.index.remove c, d.objects⟩ := by
  intro row member
  exact sound row ((Index.mem_remove_iff c d.index row).mp member).1

/-- Whatever becomes of the archive of a coordinate that is not listed, no row is concerned. -/
theorem sound_of_unlisted (sound : d.Sound) {c : Coordinate} (unlisted : ¬ d.index.Lists c)
    {objects : Objects}
    (others : ∀ other, other.Accepted → other ≠ c → objects.archive? other = d.archive? other) :
    Sound ⟨d.index, objects⟩ := by
  intro row member
  obtain ⟨accepted, data, held, manifest⟩ := sound row member
  have different : row.coordinate ≠ c := by
    rintro rfl
    exact unlisted ⟨row, member, rfl⟩
  exact ⟨accepted, data, (others _ accepted different).trans held, manifest⟩

theorem sound_putArchive (sound : d.Sound) {c : Coordinate} (accepted : c.Accepted)
    (unlisted : ¬ d.index.Lists c) {data : ByteArray} {objects : Objects}
    (stored : d.objects.putArchive c data = .ok objects) : Sound ⟨d.index, objects⟩ := by
  apply sound_of_unlisted sound unlisted
  intro other otherAccepted different
  rw [Objects.archive?_putArchive accepted otherAccepted stored, if_neg different, archive?]

theorem sound_deleteArchive (sound : d.Sound) {c : Coordinate} (accepted : c.Accepted)
    (unlisted : ¬ d.index.Lists c) {objects : Objects}
    (deleted : d.objects.deleteArchive c = .ok objects) : Sound ⟨d.index, objects⟩ := by
  apply sound_of_unlisted sound unlisted
  intro other otherAccepted different
  rw [Objects.archive?_deleteArchive accepted otherAccepted deleted, if_neg different, archive?]

end Depot

/-! ## Every call of an operation -/

/-- A procedure of which every call, whatever the answers, leaves a sound depot. -/
abbrev StaysSound {α : Type} (p : Task α) (d : Depot) : Prop :=
  Holds (orFails Depot.serves) Depot.Sound (fun _ e => e.Sound) p d

variable {d : Depot}

theorem staysSound_count (counter : Counter) (sound : d.Sound) :
    StaysSound (ask (.count counter)) d := by
  intro answer e served
  have same := depot_unchanged rfl rfl served
  rw [same]
  exact ⟨sound, sound⟩

/-- The archive is stored while no row refers to it, and is there when the row is put. -/
theorem staysSound_takeIn {s : SerialCoordinate} (data : ByteArray) (source : ArchiveSource)
    (sound : d.Sound) (accepted : s.coordinate.Accepted)
    (unlisted : ¬ d.index.Lists s.coordinate) :
    StaysSound (Reconciler.takeIn s data source) d := by
  unfold Reconciler.takeIn
  cases manifest : Reconciler.manifestOf s.coordinate data with
  | error e => exact sound
  | ok text =>
      rw [StaysSound, holds_bind]
      intro answer e served
      rcases Depot.served_putArchive served with ⟨⟨failure, rfl⟩, rfl⟩ | ⟨rfl, objects, stored, rfl⟩
      · exact ⟨sound, sound⟩
      -- An older archive may have been replaced here, but none that a row stands for.
      have kept := Depot.sound_putArchive sound accepted unlisted stored
      have held : objects.archive? s.coordinate = some data := by
        rw [Objects.archive?_putArchive accepted accepted stored]
        exact if_pos rfl
      apply And.intro kept
      rw [Holds, holds_bind]
      intro answer e served
      rcases Depot.served_putRow served with ⟨⟨failure, rfl⟩, rfl⟩ | ⟨rfl, now, rfl⟩
      · exact ⟨kept, kept⟩
      have indexed := Depot.sound_put kept ⟨s.coordinate, s.serial, text⟩ accepted held manifest now
      apply And.intro indexed
      rw [Holds, holds_bind]
      exact staysSound_count (.downloads source) indexed

/-- Bringing a module in keeps a depot sound at every call. -/
theorem staysSound_reconcile (r : Reconciler) {s : SerialCoordinate} (sound : d.Sound)
    (accepted : s.coordinate.Accepted) : StaysSound (r.reconcile s) d := by
  rw [StaysSound, Reconciler.reconcile, holds_bind]
  intro answer e served
  obtain ⟨rfl, ⟨failure, rfl⟩ | rfl⟩ := Depot.served_findSerial served
  · exact ⟨sound, sound⟩
  apply And.intro sound
  rw [Holds]
  cases found : e.index.serial? s.coordinate with
  | none =>
      -- Nothing but the network is used until the archive is there, so it stays unlisted.
      have unlisted := (Index.serial?_eq_none_iff e.index s.coordinate).mp found
      rw [holds_bind]
      apply holds_of_only ?_ (only_download r s.coordinate) sound
      · intro fetched
        cases fetched with
        | error failure => exact sound
        | ok archive => exact staysSound_takeIn archive.1 archive.2 sound accepted unlisted
      · intro c answer next network served
        obtain ⟨quietIndex, quietObjects⟩ := Call.quiet_of_isExchange network
        exact depot_unchanged quietIndex quietObjects served
  | some held =>
      dsimp only
      by_cases same : held = s.serial
      · rw [if_pos same]
        exact sound
      · rw [if_neg same, holds_bind]
        intro answer next served
        rcases Depot.served_setSerial served with ⟨⟨failure, rfl⟩, rfl⟩ | ⟨rfl, index, changed, rfl⟩
        · exact ⟨sound, sound⟩
        have renumbered := Depot.sound_setSerial sound changed
        apply And.intro renumbered
        rw [Holds, holds_bind]
        exact staysSound_count .renumberings renumbered

/-- Removing a module keeps a depot sound at every call. -/
theorem staysSound_removeModule {c : Coordinate} (sound : d.Sound) (accepted : c.Accepted) :
    StaysSound (removeModule c) d := by
  rw [StaysSound, removeModule, holds_bind]
  intro answer e served
  rcases Depot.served_removeRow served with ⟨⟨failure, rfl⟩, rfl⟩ | ⟨rfl, rfl⟩
  · exact ⟨sound, sound⟩
  -- From here on no row refers to the archive, whether it can be deleted or not.
  have removed := Depot.sound_remove sound c
  have unlisted := d.index.not_lists_remove c
  apply And.intro removed
  rw [Holds, holds_bind]
  intro answer e served
  rcases Depot.served_deleteArchive served with ⟨_, rfl⟩ | ⟨_, objects, deleted, rfl⟩
  · exact ⟨removed, removed⟩
  · have kept := Depot.sound_deleteArchive removed accepted unlisted deleted
    exact ⟨kept, kept⟩

theorem staysSound_task (op : Operation) (sound : d.Sound) (accepted : op.coordinate.Accepted) :
    StaysSound op.task d := by
  cases op with
  | bringIn r s =>
      rw [StaysSound, Operation.task, holds_bind]
      exact staysSound_reconcile r sound accepted
  | remove c =>
      rw [StaysSound, Operation.task, holds_bind]
      exact staysSound_removeModule sound accepted

/-- Whatever operations follow each other, whichever calls fail and wherever an operation is left
off, after every call each row's archive is held, can be read, and has the row's manifest. -/
theorem indexed_archives_held {operations : List Operation}
    (accepted : ∀ op ∈ operations, op.coordinate.Accepted) {d : Depot}
    (reached : Reaches (orFails Depot.serves) (operations.map Operation.task) .empty d) :
    ∀ row ∈ d.index.rows, d.Backs row := by
  have each : ∀ p ∈ operations.map Operation.task, ∀ e : Depot, e.Sound → StaysSound p e := by
    intro p member e sound
    obtain ⟨op, present, rfl⟩ := List.mem_map.mp member
    exact staysSound_task op sound (accepted op present)
  -- Soundness is the invariant: each operation keeps it at every call, from any sound depot.
  have sound : d.Sound := by
    apply reaches_keeps reached Depot.sound_empty
    · intro p first
      exact each p (List.mem_of_mem_head? first) Depot.empty Depot.sound_empty
    · intro p later
      exact each p (List.mem_of_mem_tail later)
  intro row member
  exact Depot.backs_of_sound sound member

/-! ## A module that is brought in at the second attempt -/

namespace Sample

def indexed : Depot := ⟨Index.empty.put (.ofNanos 0) addition, stored.objects⟩

/-- The row cannot be put at first, so that an archive without a row is left behind. The second
attempt fetches it again. -/
theorem reaches_indexed : Reaches (orFails Depot.serves)
    ([Operation.bringIn reconciler wanted, .bringIn reconciler wanted].map Operation.task)
    .empty indexed := by
  have absent (d : Depot) (empty : d.index = .empty) :
      orFails Depot.serves (.findSerial wanted.coordinate) d (.ok none) d := by
    refine Or.inl ⟨⟨?_, rfl⟩, rfl⟩
    rw [empty]
    rfl
  have fetched (d : Depot) :
      orFails Depot.serves (.exchange request) d (some ⟨200, archive⟩) d := Or.inl ⟨rfl, rfl⟩
  have put : orFails Depot.serves (.putArchive wanted.coordinate archive) .empty (.ok ()) stored :=
    Or.inl ⟨rfl, rfl, rfl⟩
  have putAgain : orFails Depot.serves (.putArchive wanted.coordinate archive) stored (.ok ())
      stored := Or.inl ⟨rfl, rfl, (Function.update_idem _ _ _).symm⟩
  have refused : orFails Depot.serves (.putRow addition) stored (.error (.database "busy"))
      stored := Or.inr ⟨⟨_, rfl⟩, rfl⟩
  have made : orFails Depot.serves (.putRow addition) stored (.ok ()) indexed :=
    Or.inl ⟨⟨rfl, .ofNanos 0, rfl⟩, rfl⟩
  refine Reaches.call (absent .empty rfl) (Reaches.call (fetched .empty) (Reaches.call put ?_))
  refine Reaches.call refused (Reaches.leave ?_)
  refine Reaches.call (absent stored rfl) (Reaches.call (fetched stored) (Reaches.call putAgain ?_))
  exact Reaches.call made (Reaches.here _ indexed)

end Sample

theorem indexed_archives_held_after_retry :
    (∀ row ∈ Sample.indexed.index.rows, Sample.indexed.Backs row) ∧
      Sample.indexed.index.Lists Sample.wanted.coordinate := by
  refine ⟨indexed_archives_held ?_ Sample.reaches_indexed, by decide⟩
  intro op member
  rcases List.mem_cons.mp member with rfl | later
  · decide
  · rw [List.mem_singleton.mp later]
    decide

end ModuleDepot.Proxy
