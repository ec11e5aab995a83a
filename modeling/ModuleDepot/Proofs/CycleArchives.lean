import ModuleDepot.Proofs.CycleAccounts
import ModuleDepot.Proofs.ModulePaths
import ModuleDepot.Proofs.RemovedArchives

/-!
What a cycle does to the archives. It deletes none, and records a row only after it has stored an
archive; so in a directory that a store has for itself, an archive stands behind every row that
came in.
-/

namespace ModuleDepot

namespace FileStore

open FileTree (names steps)

variable {store : FileStore} {base : FileTree} {anchor : Location} {key : String}
  {around : Surroundings} {data : ByteArray} {c d : Coordinate}

theorem isRelative_of_putArchive (stored : (store.putArchive around c data).1 = .ok ()) :
    ∃ key, c.archiveKey = .ok key ∧ isRelative key = true := by
  rw [putArchive] at stored
  cases written : archiveKey c with
  | error e =>
    rw [written] at stored
    cases stored
  | ok key =>
    obtain ⟨some_key, -⟩ := steps_of_archiveKey written
    rw [written] at stored
    change (store.put around key data).1 = .ok () at stored
    rcases put_cases store key around data with ⟨e, failed⟩ | ⟨_, _, resolved, -⟩
    · rw [failed] at stored
      cases stored
    · obtain ⟨relative, -⟩ := (resolve_eq_ok_iff some_key).mp resolved
      exact ⟨key, archiveKey_iff.mp written, relative⟩

/-- The source of a coordinate with such a key is there and begins with no slash. -/
theorem source_of_isRelative (keyed : c.archiveKey = .ok key) (relative : isRelative key = true) :
    c.source ≠ "" ∧ c.source.toList.head? ≠ some '/' := by
  obtain ⟨source, version, folded, -, rfl⟩ := (Coordinate.archiveKey_eq_ok_iff c key).mp keyed
  have kept := EscapedPath.head?_foldCase ((EscapedPath.escape_eq_ok_iff _ _).mp folded)
  have begins : (source ++ "/@v/" ++ version ++ ".zip").toList.head? ≠ some '/' := fun slash =>
    (isRelative_iff.mp relative).2.1 (head?_steps_of_slash slash)
  cases letters : source.toList with
  | nil => simp [letters] at begins
  | cons first rest =>
    rw [letters] at kept
    constructor
    · intro empty
      rw [empty] at kept
      exact absurd (kept.2.mpr rfl) (List.cons_ne_nil first rest)
    · intro slash
      have same : first = '/' := Option.some.inj (kept.1.mpr slash)
      simp [letters, same] at begins

section Tended

variable (tended : base.Tended anchor store.tree) (bare : base.Bare store.root anchor)

include tended bare

theorem getArchive_of_file {file : List String} (kept : archiveFile? store.root c = some file)
    (stands : store.tree.fileAt? (anchor ++ file) = some data) : store.getArchive c = .ok data := by
  refine ok_of_toOption ?_
  rw [getArchive_toOption tended bare, kept]
  exact stands

theorem file_of_getArchive (got : store.getArchive c = .ok data) :
    ∃ file, archiveFile? store.root c = some file ∧
      store.tree.fileAt? (anchor ++ file) = some data := by
  have read := getArchive_toOption tended bare c
  rw [got] at read
  exact Option.bind_eq_some_iff.mp read.symm

/-- Storing an archive takes none away, and then there is one. -/
theorem getArchive_of_putArchive {done : Except StorageError Unit} {next : FileStore}
    (put : store.putArchive around c data = (done, next)) :
    (∀ d, (∃ old, store.getArchive d = .ok old) → ∃ new, next.getArchive d = .ok new) ∧
      (done = .ok () → next.getArchive c = .ok data) := by
  obtain ⟨root, after, changed⟩ := of_putArchive tended bare put
  have bare : base.Bare next.root anchor := root ▸ bare
  rcases changed with ⟨⟨e, rfl⟩, same⟩ | ⟨rfl, some_file, leaves⟩
  · refine ⟨?_, fun done => nomatch done⟩
    rintro d ⟨old, got⟩
    obtain ⟨file, kept, stands⟩ := file_of_getArchive tended (root ▸ bare) got
    exact ⟨old, getArchive_of_file after bare (root ▸ kept) ((same _).trans stands)⟩
  · obtain ⟨own, kept⟩ := Option.isSome_iff_exists.mp some_file
    constructor
    · rintro d ⟨old, got⟩
      obtain ⟨file, found, stands⟩ := file_of_getArchive tended (root ▸ bare) got
      have there := leaves (anchor ++ file)
      by_cases same : own = file
      · rw [kept, same, Option.map_some, if_pos rfl] at there
        exact ⟨data, getArchive_of_file after bare (root ▸ found) there⟩
      · rw [kept, Option.map_some, if_neg (by simpa using same), stands] at there
        exact ⟨old, getArchive_of_file after bare (root ▸ found) there⟩
    · intro _
      have there := leaves (anchor ++ own)
      rw [kept, Option.map_some, if_pos rfl] at there
      exact getArchive_of_file after bare (root ▸ kept) there

/-- In such a directory nothing leads outside. -/
theorem not_roundabout_of_tended (written : archiveKey c = .ok key)
    (relative : isRelative key = true) : ¬ store.Roundabout anchor key := by
  obtain ⟨-, above, name, split, -⟩ := steps_of_archiveKey written
  rintro ⟨directory, leads, outside⟩
  rw [FileStore.path, split, ← List.append_assoc, List.dropLast_concat] at leads
  obtain ⟨-, walked⟩ := FileTree.locate_eq_ok_iff.mp leads
  have down := not_up_above relative split
  obtain ⟨rfl, -⟩ := tended.rooted_eq bare (.inl rfl) (.inr rfl) down walked
  exact outside (List.prefix_append anchor _)

/-- In such a directory what can be read can be taken away. -/
theorem deleteArchive_of_tended (got : store.getArchive c = .ok data) :
    (store.deleteArchive c).1 = .ok () ∧
      (store.deleteArchive c).2.getArchive c = .error (.notFound c.display) := by
  obtain ⟨key, _, written, -⟩ := located_of_getArchive got
  obtain ⟨some_key, -⟩ := steps_of_archiveKey written
  obtain ⟨relative, -⟩ :=
    (get_eq_ok_iff_leads some_key).mp ((getArchive_eq_ok_iff written).mp got)
  obtain ⟨done, -, missing⟩ :=
    deleteArchive_of_getArchive written got (tended.locate_root bare)
  exact ⟨done, missing.mpr (not_roundabout_of_tended tended bare written relative)⟩

end Tended

end FileStore

namespace Proxy

open Procedure
open FileStore (isRelative)

variable {σ : Type} {outside : Outside σ} {r : Reconciler} {x y : State × σ} {c : Coordinate}
  {events : List (Event Call Answer)}

/-! ## The calls of a cycle -/

/-- A coordinate that is listed only afterwards was recorded in between. -/
theorem putRow_of_lists (passes : Passes (handled (State.answer outside)) events x y)
    (after : y.1.index.Lists c) (before : ¬ x.1.index.Lists c) :
    ∃ a answer, ⟨.putRow a, answer⟩ ∈ events ∧ a.coordinate = c := by
  induction passes with
  | stay x => exact absurd after before
  | @call call answer events x y z served rest ih =>
    by_cases here : y.1.index.Lists c
    · have changed := indexServes_answer outside call x
      rw [show State.answer outside call x = (answer, y) from served] at changed
      cases call with
      | putRow a =>
        obtain ⟨-, now, index⟩ := changed
        rw [index, Index.lists_put_iff] at here
        rcases here with rfl | listed
        · exact ⟨a, answer, List.mem_cons_self, rfl⟩
        · exact absurd listed before
      | setSerial s =>
        rcases attempts_cases changed with ⟨-, same⟩ | ⟨-, renumbered⟩
        · exact absurd (same ▸ here) before
        · exact absurd ((Index.lists_setSerial_iff renumbered c).mp here) before
      | removeRow d =>
        rw [changed.2, Index.lists_remove_iff] at here
        exact absurd here.1 before
      | _ => exact absurd ((index_unchanged rfl changed) ▸ here) before
    · obtain ⟨a, answer, among, same⟩ := ih after here
      exact ⟨a, answer, List.mem_cons_of_mem _ among, same⟩

theorem Intake.stored_of_putRow {s : SerialCoordinate} {data : ByteArray} {source : ArchiveSource}
    {a : Addition} {answer : Answer (.putRow a)} {result : Except ReconcileError Outcome}
    (intake : Intake s data source events result) (put : ⟨.putRow a, answer⟩ ∈ events) :
    ⟨.putArchive s.coordinate data, .ok ()⟩ ∈ events := by
  cases intake with
  | unreadable | unstored => simp at put
  | unlisted | listed => exact List.mem_cons_self

/-- A row is only recorded after the archive was stored. -/
theorem Course.stored_of_putRow {s : SerialCoordinate} {a : Addition}
    {answer : Answer (.putRow a)} {result : Except ReconcileError Outcome}
    (course : Course r s events result) (put : ⟨.putRow a, answer⟩ ∈ events) :
    a.coordinate = s.coordinate ∧ ∃ data, ⟨.putArchive s.coordinate data, .ok ()⟩ ∈ events := by
  refine ⟨(course.ofReconciliation _ put).1, ?_⟩
  have fetched : ∀ {fetch : List (Event Call Answer)}
      {result : Except ReconcileError (ByteArray × ArchiveSource)},
      Trace (r.download s.coordinate) fetch result → ⟨.putRow a, answer⟩ ∉ fetch := by
    intro fetch result trace among
    have network := exchanges_of_download trace _ among
    cases network
  cases course with
  | unsearched | known | unchanged | renumbered => simp at put
  | unfetched trace =>
    rcases List.mem_cons.mp put with other | among
    · cases other
    · exact absurd among (fetched trace)
  | @fetched fetch taken data source result trace intake =>
    rcases List.mem_cons.mp put with other | later
    · cases other
    rcases List.mem_append.mp later with among | among
    · exact absurd among (fetched trace)
    · exact ⟨data, List.mem_cons_of_mem _
        (List.mem_append_right fetch (intake.stored_of_putRow among))⟩

theorem CycleCourse.stored_of_putRow {report : CycleReport} {a : Addition}
    {answer : Answer (.putRow a)} (course : CycleCourse r events report)
    (put : ⟨.putRow a, answer⟩ ∈ events) :
    ∃ held needed rest data, events = opening held needed ++ rest ∧
      (∃ s ∈ needed, s.coordinate = a.coordinate) ∧
      ⟨.putArchive a.coordinate data, .ok ()⟩ ∈ events := by
  cases course with
  | unread | unanswered => simp at put
  | @answered held attempts made =>
    have among : ⟨.putRow a, answer⟩ ∈ Attempt.record attempts := by
      simpa [opening] using put
    obtain ⟨attempt, tried, called⟩ := List.mem_flatMap.mp among
    have unnoted : ⟨.putRow a, answer⟩ ∉ attempt.notes := by
      rw [Attempt.notes]
      cases attempt.result <;> simp
    have own := (List.mem_append.mp called).resolve_right unnoted
    obtain ⟨same, data, stored⟩ := (course_of_trace (made attempt tried)).stored_of_putRow own
    refine ⟨held, _, _, data, rfl, ⟨attempt.wanted, List.mem_map_of_mem tried, same.symm⟩, ?_⟩
    rw [same]
    exact List.mem_append_right _
      (List.mem_flatMap.mpr ⟨attempt, tried, List.mem_append_left _ stored⟩)

/-- A cycle deletes no archive. -/
theorem CycleCourse.deletes_nothing {report : CycleReport} (course : CycleCourse r events report) :
    ∀ event ∈ events, ∀ d, event.1 ≠ .deleteArchive d := by
  cases course with
  | unread | unanswered => simp
  | @answered held attempts made =>
    intro event among d
    rcases List.mem_append.mp among with first | later
    · simp only [opening, List.mem_cons, List.not_mem_nil, or_false] at first
      rcases first with rfl | rfl | rfl <;> simp
    · obtain ⟨attempt, tried, called⟩ := List.mem_flatMap.mp later
      rcases List.mem_append.mp called with own | noted
      · intro same
        have kind := (course_of_trace (made attempt tried)).ofReconciliation _ own
        rw [same] at kind
        exact kind
      · rw [Attempt.notes] at noted
        cases failed : attempt.result with
        | ok outcome => simp [failed] at noted
        | error e =>
          simp only [failed, List.mem_cons, List.not_mem_nil, or_false] at noted
          rcases noted with rfl | rfl <;> simp

/-! ## What the store holds -/

theorem store_unchanged {call : Call} (quiet : call.changesObjects = false) (x : State × σ) :
    (State.answer outside call x).2.1.store = x.1.store := by
  rcases x with ⟨s, w⟩
  cases call with
  | putArchive | deleteArchive => cases quiet
  | setSerial a =>
    simp only [State.answer]
    cases s.index.setSerial a <;> rfl
  | _ => rfl

theorem putArchive_of_served {data : ByteArray} {done : Except StorageError Unit}
    (served : handled (State.answer outside) (.putArchive c data) x done y) :
    x.1.store.putArchive x.1.freshName c data = (done, y.1.store) := by
  have whole : State.answer outside (.putArchive c data) x = (done, y) := served
  cases put : x.1.store.putArchive x.1.freshName c data with
  | mk outcome next =>
    simp only [State.answer, put] at whole
    cases whole
    rfl

theorem isRelative_of_stored {data : ByteArray}
    (passes : Passes (handled (State.answer outside)) events x y)
    (stored : ⟨.putArchive c data, .ok ()⟩ ∈ events) :
    ∃ key, c.archiveKey = .ok key ∧ isRelative key = true := by
  obtain ⟨before, after, rfl⟩ := List.append_of_mem stored
  obtain ⟨u, -, later⟩ := passes_append.mp passes
  cases later with
  | call served _ =>
    exact FileStore.isRelative_of_putArchive (congrArg Prod.fst (putArchive_of_served served))

section Tended

variable {base : FileTree} {anchor : Location} {root : List String}

/-- The store works in a directory of its own, in which nobody else does. -/
structure Keeps (base : FileTree) (anchor : Location) (root : List String) (s : State) : Prop where
  rooted : s.store.root = root
  bare : base.Bare root anchor
  tended : base.Tended anchor s.store.tree

theorem Keeps.served {call : Call} {answer : Answer call} (keeps : Keeps base anchor root x.1)
    (served : handled (State.answer outside) call x answer y)
    (kept : ∀ d, call ≠ .deleteArchive d) :
    Keeps base anchor root y.1 ∧
      ((∃ old, x.1.store.getArchive c = .ok old) → ∃ new, y.1.store.getArchive c = .ok new) := by
  obtain ⟨rfl, bare, tended⟩ := keeps
  by_cases changes : call.changesObjects = true
  · cases call with
    | putArchive d data =>
      have put := putArchive_of_served served
      obtain ⟨rooted, after, -⟩ := FileStore.of_putArchive tended bare put
      obtain ⟨there, -⟩ := FileStore.getArchive_of_putArchive tended bare put
      exact ⟨⟨rooted, bare, after⟩, there c⟩
    | deleteArchive d => exact absurd rfl (kept d)
    | _ => cases changes
  · have whole : State.answer outside call x = (answer, y) := served
    have same : y.1.store = x.1.store := by
      rw [← store_unchanged (by simpa using changes) x, whole]
    exact ⟨⟨by rw [same], bare, same ▸ tended⟩, by rw [same]; exact id⟩

theorem Keeps.passes (keeps : Keeps base anchor root x.1)
    (passes : Passes (handled (State.answer outside)) events x y)
    (kept : ∀ event ∈ events, ∀ d, event.1 ≠ .deleteArchive d) :
    Keeps base anchor root y.1 ∧
      ((∃ old, x.1.store.getArchive c = .ok old) → ∃ new, y.1.store.getArchive c = .ok new) := by
  induction passes with
  | stay x => exact ⟨keeps, id⟩
  | call served _ ih =>
    obtain ⟨first, others⟩ := List.forall_mem_cons.mp kept
    obtain ⟨keeps, there⟩ := keeps.served served first
    obtain ⟨keeps, still⟩ := ih keeps others
    exact ⟨keeps, fun old => still (there old)⟩

/-- What was stored on the way is there in the end. -/
theorem Keeps.stored {data : ByteArray} (keeps : Keeps base anchor root x.1)
    (passes : Passes (handled (State.answer outside)) events x y)
    (kept : ∀ event ∈ events, ∀ d, event.1 ≠ .deleteArchive d)
    (stored : ⟨.putArchive c data, .ok ()⟩ ∈ events) : ∃ new, y.1.store.getArchive c = .ok new := by
  obtain ⟨before, after, rfl⟩ := List.append_of_mem stored
  obtain ⟨first, later⟩ := List.forall_mem_append.mp kept
  obtain ⟨own, others⟩ := List.forall_mem_cons.mp later
  obtain ⟨u, early, late⟩ := passes_append.mp passes
  obtain ⟨keeps, -⟩ := keeps.passes (c := c) early first
  cases late with
  | call served rest =>
    obtain ⟨-, put⟩ := FileStore.getArchive_of_putArchive keeps.tended
      (keeps.rooted ▸ keeps.bare) (putArchive_of_served served)
    obtain ⟨keeps, -⟩ := keeps.served (c := c) served own
    exact (keeps.passes rest others).2 ⟨data, put rfl⟩

end Tended

end Proxy

end ModuleDepot
