import ModuleDepot.Proofs.ArchiveNames
import ModuleDepot.Proofs.FileKeys
import ModuleDepot.Proofs.TendedFiles
import ModuleDepot.Storage.Archives

/-!
Archives as files. In a directory where only the store has worked, the archive of a
coordinate is the file at the names of its key: what is got is what that file holds, and a
call that stores or deletes an archive changes that file and no other.
-/

namespace ModuleDepot

open FileTree (Bare Fits IsName names steps)

/-! ## The file of a coordinate -/

instance (start path : List String) : Decidable (Fits start path) :=
  match sendable : FileTree.checkPath (start ++ path) with
  | .error _ => isFalse fun fits => by rw [fits.sendable] at sendable; cases sendable
  | .ok _ => decidable_of_iff (∀ n ∈ names path, FileTree.isLongName n = false)
      ⟨fun short => ⟨sendable, short⟩, fun fits => fits.short⟩

namespace FileStore

/-- The names below the root of the file that a coordinate's archive is kept in, if its key is
one that the store admits and that the file system can take. -/
def archiveFile? (root : List String) (c : Coordinate) : Option (List String) :=
  match archiveKey c with
  | .error _ => none
  | .ok key =>
      if isRelative key = true ∧ Fits root (steps key) then some (names (steps key)) else none

theorem steps_of_archiveKey {c : Coordinate} {key : String} (written : archiveKey c = .ok key) :
    key ≠ "" ∧ ∃ above name, steps key = above ++ [name] ∧ IsName name := by
  unfold archiveKey at written
  cases made : c.archiveKey with
  | error e => rw [made] at written; cases written
  | ok key' =>
    rw [made] at written
    cases written
    obtain ⟨source, version, -, -, rfl⟩ := (Coordinate.archiveKey_eq_ok_iff c key).mp made
    obtain ⟨above, name, split, named⟩ :=
      FileTree.steps_ending version ".zip" (by decide) (by decide)
    have shape : steps (source ++ "/@v/" ++ version ++ ".zip") =
        (steps source ++ "@v" :: above) ++ [name] := by
      rw [Coordinate.steps_archiveKey, split]
      simp
    refine ⟨?_, _, name, shape, named⟩
    intro empty
    rw [empty] at shape
    have single : steps "" = [""] := by decide
    rw [single] at shape
    have last := congrArg List.getLast? shape
    rw [List.getLast?_concat] at last
    exact named.1 (Option.some.inj last).symm

theorem not_up_above {key name : String} {above : List String} (relative : isRelative key = true)
    (split : steps key = above ++ [name]) : ".." ∉ above :=
  fun mem => not_up_of_isRelative relative (split ▸ List.mem_append_left _ mem)

theorem place_of_split (anchor : Location) {key name : String} {above : List String}
    (split : steps key = above ++ [name]) (named : IsName name) :
    anchor ++ names (steps key) = anchor ++ names above ++ [name] := by
  rw [split, FileTree.names_concat named, List.append_assoc]

variable {base : FileTree} {anchor : Location} {store : FileStore}

/-- The way to a place where something stands is free. -/
theorem resolve_of_stands (tended : base.Tended anchor store.tree)
    (bare : base.Bare store.root anchor) {key name : String} {above : List String}
    (some_key : key ≠ "") (relative : isRelative key = true) (split : steps key = above ++ [name])
    (named : IsName name) (fits : Fits store.root (steps key))
    (stands : store.tree.at? (anchor ++ names above ++ [name]) ≠ none) :
    store.resolve key = .ok (store.root ++ above ++ [name]) := by
  have down := not_up_above relative split
  rw [split] at fits
  have located : ∀ follow, store.tree.locate follow (store.root ++ above ++ [name]) =
      .ok (anchor ++ names above ++ [name]) := fun _ =>
    tended.locate_standing bare (.inl rfl) down named fits stands
  have below : anchor.isPrefixOf (anchor ++ names above ++ [name]) = true := by
    rw [List.isPrefixOf_iff_prefix, List.append_assoc]
    exact List.prefix_append anchor _
  unfold resolve
  rw [if_neg some_key, relative, if_neg (by decide), tended.locate_root bare, split,
    ← List.append_assoc]
  simp only [upward, checkUpward, located, mapError_ok, bind, Except.bind, below, if_true]
  rfl

theorem get_eq_ok_iff (tended : base.Tended anchor store.tree)
    (bare : base.Bare store.root anchor) {c : Coordinate} {key : String}
    (written : archiveKey c = .ok key) (data : ByteArray) :
    store.get key = .ok data ↔ isRelative key = true ∧ Fits store.root (steps key) ∧
      store.tree.fileAt? (anchor ++ names (steps key)) = some data := by
  obtain ⟨some_key, above, name, split, named⟩ := steps_of_archiveKey written
  have spot := place_of_split anchor split named
  unfold get
  rw [spot, FileTree.fileAt?_eq_some_iff]
  constructor
  · intro got
    cases resolved : store.resolve key with
    | error e => simp only [resolved, bind, Except.bind] at got; cases got
    | ok path =>
      simp only [resolved, bind, Except.bind] at got
      obtain ⟨relative, rfl⟩ := resolve_eq_ok some_key resolved
      cases read : store.tree.readFile (store.root ++ steps key) with
      | error e => rw [read] at got; cases got
      | ok data' =>
        rw [read] at got
        cases got
        have down := not_up_above relative split
        rw [split, ← List.append_assoc] at read
        obtain ⟨fits, stands⟩ :=
          (tended.readFile_eq_ok_iff bare (.inl rfl) down named).mp read
        exact ⟨relative, split ▸ fits, stands⟩
  · rintro ⟨relative, fits, stands⟩
    have down := not_up_above relative split
    have resolved := resolve_of_stands tended bare some_key relative split named fits
      (by rw [stands]; exact Option.some_ne_none _)
    have read := (tended.readFile_eq_ok_iff bare (.inl rfl) down named).mpr
      ⟨split ▸ fits, stands⟩
    simp only [resolved, read, bind, Except.bind]
    rfl

theorem getArchive_toOption (tended : base.Tended anchor store.tree)
    (bare : base.Bare store.root anchor) (c : Coordinate) :
    (store.getArchive c).toOption =
      (archiveFile? store.root c).bind fun file => store.tree.fileAt? (anchor ++ file) := by
  unfold archiveFile?
  cases written : archiveKey c with
  | error e =>
    unfold getArchive
    rw [written]
    rfl
  | ok key =>
    have got := get_eq_ok_iff tended bare written
    -- A file that is missing is reported under another name, and is missing all the same.
    have renamed : (store.getArchive c).toOption = (store.get key).toOption := by
      unfold getArchive
      simp only [written]
      split
      · next missing => rw [missing]; rfl
      · rfl
    refine renamed.trans (Option.ext fun data => ?_)
    have kept : (store.get key).toOption = some data ↔ store.get key = .ok data := by
      cases store.get key <;> simp [Except.toOption]
    rw [kept, got data]
    by_cases admitted : isRelative key = true ∧ Fits store.root (steps key)
    · simp [admitted]
    · simp only [admitted, if_false, Option.bind_none, reduceCtorEq, iff_false]
      rintro ⟨relative, fits, -⟩
      exact admitted ⟨relative, fits⟩

/-- What a change of an archive leaves of the files: those of other places, and at its own place
what was written, if anything was. -/
def Leaves (anchor : Location) (c : Coordinate) (left : Option ByteArray)
    (store next : FileStore) : Prop :=
  ∀ place, next.tree.fileAt? place =
    if (archiveFile? store.root c).map (anchor ++ ·) = some place then left
    else store.tree.fileAt? place

variable {next : FileStore} {c : Coordinate} {done : Except StorageError Unit}

theorem archiveFile?_eq_some_iff {key : String} (written : archiveKey c = .ok key)
    (root file : List String) : archiveFile? root c = some file ↔
      isRelative key = true ∧ Fits root (steps key) ∧ names (steps key) = file := by
  simp [archiveFile?, written, and_assoc]

/-- Storing an archive either is refused and changes no file, or it changes the one that is
kept for the coordinate. -/
theorem of_putArchive (tended : base.Tended anchor store.tree) (bare : base.Bare store.root anchor)
    {around : Surroundings} {data : ByteArray}
    (put : store.putArchive around c data = (done, next)) :
    next.root = store.root ∧ base.Tended anchor next.tree ∧
      ((∃ e, done = .error e) ∧ FileTree.SameFiles store.tree next.tree ∨
        done = .ok () ∧ (archiveFile? store.root c).isSome = true ∧
          Leaves anchor c (some data) store next) := by
  unfold putArchive at put
  split at put
  · cases put
    exact ⟨rfl, tended, .inl ⟨⟨_, rfl⟩, FileTree.sameFiles_refl _⟩⟩
  · next key written =>
    obtain ⟨some_key, above, name, split, named⟩ := steps_of_archiveKey written
    unfold FileStore.put at put
    split at put
    · cases put
      exact ⟨rfl, tended, .inl ⟨⟨_, rfl⟩, FileTree.sameFiles_refl _⟩⟩
    · next path resolved =>
      obtain ⟨relative, rfl⟩ := resolve_eq_ok some_key resolved
      have down := not_up_above relative split
      have spot := place_of_split anchor split named
      rw [split, ← List.append_assoc] at put
      cases wrote : writeAt around (store.root ++ above ++ [name]) data store.tree with
      | mk outcome tree =>
        rw [wrote] at put
        cases put
        obtain ⟨after, ⟨⟨e, rfl⟩, same⟩ | ⟨rfl, fits, files⟩⟩ :=
          tended.of_writeAt bare down named wrote
        · exact ⟨rfl, after, .inl ⟨⟨_, rfl⟩, same⟩⟩
        · have file := (archiveFile?_eq_some_iff written _ _).mpr ⟨relative, split ▸ fits, rfl⟩
          refine ⟨rfl, after, .inr ⟨rfl, by rw [file]; rfl, fun place => ?_⟩⟩
          rw [file, Option.map_some, spot, files place]
          simp only [Option.some.injEq, eq_comm]

theorem delete_eq_ok_iff (tended : base.Tended anchor store.tree)
    (bare : base.Bare store.root anchor) {key : String} (written : archiveKey c = .ok key)
    (next : FileStore) :
    store.delete key = (.ok (), next) ↔ isRelative key = true ∧ Fits store.root (steps key) ∧
      (∃ data, store.tree.fileAt? (anchor ++ names (steps key)) = some data) ∧
      next = { store with tree := store.tree.erase (anchor ++ names (steps key)) } := by
  obtain ⟨some_key, above, name, split, named⟩ := steps_of_archiveKey written
  have spot := place_of_split anchor split named
  unfold delete
  simp only [spot, FileTree.fileAt?_eq_some_iff]
  constructor
  · intro deleted
    split at deleted
    · cases deleted
    · next path resolved =>
      obtain ⟨relative, rfl⟩ := resolve_eq_ok some_key resolved
      have down := not_up_above relative split
      split at deleted
      · next tree removed =>
        cases deleted
        rw [split, ← List.append_assoc] at removed
        obtain ⟨fits, stands, rfl⟩ :=
          (tended.removeFile_eq_ok_iff bare (.inl rfl) down named).mp removed
        exact ⟨relative, split ▸ fits, stands, rfl⟩
      · cases deleted
  · rintro ⟨relative, fits, ⟨data, stands⟩, rfl⟩
    have down := not_up_above relative split
    have resolved := resolve_of_stands tended bare some_key relative split named fits
      (by rw [stands]; exact Option.some_ne_none _)
    have removed := (tended.removeFile_eq_ok_iff bare (.inl rfl) down named).mpr
      ⟨split ▸ fits, ⟨data, stands⟩, rfl⟩
    simp only [resolved, removed]

theorem leaves_of_delete (tended : base.Tended anchor store.tree)
    (bare : base.Bare store.root anchor) {key : String} (written : archiveKey c = .ok key)
    (deleted : store.delete key = (.ok (), next)) :
    next.root = store.root ∧ base.Tended anchor next.tree ∧ Leaves anchor c none store next := by
  obtain ⟨-, above, name, split, named⟩ := steps_of_archiveKey written
  obtain ⟨relative, fits, ⟨data, stands⟩, rfl⟩ :=
    (delete_eq_ok_iff tended bare written next).mp deleted
  have spot := place_of_split anchor split named
  refine ⟨rfl, ?_, fun place => ?_⟩
  · rw [spot] at stands ⊢
    refine tended.erase bare ?_
    rw [FileTree.fileAt?_eq_some_iff.mp stands]
    exact fun same => nomatch same
  · rw [(archiveFile?_eq_some_iff written _ _).mpr ⟨relative, fits, rfl⟩, Option.map_some, spot,
      FileTree.fileAt?_erase (by simp)]
    simp only [Option.some.injEq, eq_comm]

/-- Had there been a file, it would have been taken away. -/
theorem leaves_of_refused (tended : base.Tended anchor store.tree)
    (bare : base.Bare store.root anchor) {key : String} (written : archiveKey c = .ok key)
    (refused : ∀ next, store.delete key ≠ (.ok (), next)) : Leaves anchor c none store store := by
  intro place
  split
  · next same =>
    obtain ⟨file, kept, rfl⟩ := Option.map_eq_some_iff.mp same
    obtain ⟨relative, fits, rfl⟩ := (archiveFile?_eq_some_iff written _ _).mp kept
    rw [Option.eq_none_iff_forall_ne_some]
    intro data stands
    exact refused _ ((delete_eq_ok_iff tended bare written _).mpr
      ⟨relative, fits, ⟨data, stands⟩, rfl⟩)
  · rfl

theorem delete_error {key : String} {e : StorageError}
    (failed : store.delete key = (.error e, next)) : next = store := by
  unfold delete at failed
  split at failed
  · cases failed
    rfl
  · split at failed
    · cases failed
    · cases failed
      rfl

/-- Taking an archive away either is refused and changes nothing, or it leaves no file at the
coordinate's place. -/
theorem of_deleteArchive (tended : base.Tended anchor store.tree)
    (bare : base.Bare store.root anchor) (deleted : store.deleteArchive c = (done, next)) :
    next.root = store.root ∧ base.Tended anchor next.tree ∧
      ((∃ e, done = .error e) ∧ next = store ∨
        done = .ok () ∧ Leaves anchor c none store next) := by
  unfold deleteArchive at deleted
  split at deleted
  · cases deleted
    exact ⟨rfl, tended, .inl ⟨⟨_, rfl⟩, rfl⟩⟩
  · next key written =>
    cases result : store.delete key with
    | mk outcome after =>
      rw [result] at deleted
      cases outcome with
      | ok _ =>
        cases deleted
        obtain ⟨root, kept, leaves⟩ := leaves_of_delete tended bare written result
        exact ⟨root, kept, .inr ⟨rfl, leaves⟩⟩
      | error e =>
        obtain rfl := delete_error result
        have leaves := leaves_of_refused tended bare written fun next ended => by
          rw [result] at ended
          cases ended
        cases e with
        | notFound what =>
          cases deleted
          exact ⟨rfl, tended, .inr ⟨rfl, leaves⟩⟩
        | _ =>
          cases deleted
          exact ⟨rfl, tended, .inl ⟨⟨_, rfl⟩, rfl⟩⟩

end FileStore

end ModuleDepot
