import ModuleDepot.Proofs.AddedCoordinates
import ModuleDepot.Proofs.KeyFaults

/-!
The statuses of the module protocol. What a path names, and whether it is there, decides the
status of every request, except where the store has a fault that the status table takes for one of
its own: a key that it refuses, and something else than a file where an archive would be.
-/

namespace ModuleDepot

namespace ModulePath

open EscapedPath (escape)

variable {path : String} {e : Fault} {c : Coordinate}

/-- The faults of texts that cannot be read. -/
def TextFault (e : Fault) : Prop := (∃ f, e = .escape f) ∨ ∃ f, e = .coordinate f

theorem unescaped_error {text : List Char} (failed : unescaped text = .error e) : TextFault e := by
  rw [unescaped] at failed
  cases read : EscapedPath.unescape (String.ofList text) with
  | ok plain => rw [read] at failed; cases failed
  | error f =>
    rw [read] at failed
    cases failed
    exact .inl ⟨f, rfl⟩

theorem below_error {source : String} {rest : List Char} (failed : below source rest = .error e) :
    TextFault e := by
  have of_map {kind : Coordinate → ModulePath} {escaped : List Char}
      (failed : (coordinate source escaped).map kind = .error e) : TextFault e := by
    cases made : coordinate source escaped with
    | ok c => rw [made] at failed; cases failed
    | error f =>
      rw [made] at failed
      cases failed
      exact coordinate_error made
  rw [below] at failed
  split at failed
  · cases failed
  · dsimp only at failed
    split at failed <;> exact of_map failed

/-- A path is refused for texts that cannot be read, and for nothing else. -/
theorem parse_error (failed : parse path = .error e) : TextFault e := by
  rw [parse] at failed
  split at failed
  · cases failed
  · split at failed
    · cases failed
    · next source rest _ _ =>
      cases read : unescaped source with
      | error f =>
        rw [read] at failed
        cases failed
        exact unescaped_error read
      | ok source =>
        simp only [read, bind, Except.bind] at failed
        cases lies : below source rest with
        | ok found => rw [lies] at failed; cases failed
        | error f =>
          rw [lies] at failed
          cases failed
          exact below_error lies

/-- What a path names of a coordinate has a key. -/
theorem keyed_of_parse {found : ModulePath}
    (named : parse path = .ok (some found)) (of_c : found = .archive c ∨ found = .version c) :
    ∃ key, FileStore.archiveKey c = .ok key := by
  have written : ∃ source version,
      escape c.source = .ok source ∧ escape c.version = .ok version := by
    rcases of_c with rfl | rfl
    · have listed : (".zip".toList, ModulePath.archive) ∈ endings := by simp [endings]
      obtain ⟨-, version, folded, slashes, source, folded', -⟩ :=
        (parse_eq_document_iff listed).mp named
      exact ⟨source, version, folded', folded⟩
    · obtain ⟨-, version, folded, ⟨slashes, source, folded', -⟩, -⟩ :=
        parse_eq_version_iff.mp named
      exact ⟨source, version, folded', folded⟩
  obtain ⟨source, version, folded, folded'⟩ := written
  exact ⟨_, FileStore.archiveKey_iff.mpr
    ((Coordinate.archiveKey_eq_ok_iff c _).mpr ⟨source, version, folded, folded', rfl⟩)⟩

end ModulePath

namespace Proxy

open FileStore (archiveKey)

/-! ## Statuses of failed requests -/

theorem status_of_textFault {e : Fault} (fault : ModulePath.TextFault e) :
    (RequestError.domain e).reply.status = 400 := by
  rcases fault with ⟨f, rfl⟩ | ⟨f, rfl⟩ <;> rfl

theorem status_of_faulty {e : StorageError} (faulty : e.Faulty) :
    (RequestError.storage e).reply.status = 500 := by
  cases e with
  | notFound what => exact absurd rfl (faulty what)
  | _ => rfl

/-! ## What is due, and what is overlooked -/

/-- The status that is due to a request: texts that cannot be read are the client's fault, what is
not there is not found, and another method is not allowed. -/
def dueStatus (s : State) (method : String) : Except Fault (Option ModulePath) → Nat
  | .error _ => 400
  | .ok none => 404
  | .ok (some found) =>
      match method, found with
      | "GET", .list _ => 200
      | "GET", .info c | "GET", .manifest c => if (s.index.row? c).isSome then 200 else 404
      | "GET", .archive c => if (s.store.getArchive c).toOption.isSome then 200 else 404
      | "GET", .version _ => 404
      | "DELETE", .version _ => 204
      | _, _ => 405

/-- The requests that are answered with a fault of the server: for a module whose time cannot be
written, and for an archive whose key the store refuses or that has something else in its place. -/
inductive Overlooked (s : State) (method : String) : ModulePath → Prop
  | undated {c : Coordinate} {row : IndexRow} : method = "GET" → s.index.row? c = some row →
      row.since.write? = none → Overlooked s method (.info c)
  | unread {c : Coordinate} {anchor : Location} {key : String} : method = "GET" →
      s.store.tree.locate true s.store.root = .ok anchor → archiveKey c = .ok key →
      s.store.Refusal anchor key → Overlooked s method (.archive c)
  | noFile {c : Coordinate} {key : String} {place : Location} {node : Node} : method = "GET" →
      archiveKey c = .ok key → s.store.tree.locate true (s.store.path key) = .ok place →
      s.store.tree.at? place = some node → (∀ data, node ≠ .file data) →
      Overlooked s method (.archive c)
  | undeleted {c : Coordinate} {anchor : Location} {key : String} : method = "DELETE" →
      s.store.tree.locate true s.store.root = .ok anchor → archiveKey c = .ok key →
      s.store.Refusal anchor key → Overlooked s method (.version c)
  | directory {c : Coordinate} {key : String} {place : Location} : method = "DELETE" →
      archiveKey c = .ok key → s.store.tree.locate false (s.store.path key) = .ok place →
      s.store.tree.at? place = some .directory → Overlooked s method (.version c)

/-- A request is overlooked and answered with a fault of the server, or it is answered with the
status that is due. -/
def Duly (s : State) (method : String) (found : ModulePath) (status : Nat) : Prop :=
  Overlooked s method found ∧ status = 500 ∨
    ¬ Overlooked s method found ∧ status = dueStatus s method (.ok (some found))

section

variable {σ : Type} {outside : Outside σ} {s : State} {w : σ} {c : Coordinate}
  {method path key : String} {found : ModulePath} {anchor : Location}

theorem dueStatus_lt (s : State) (method : String) (named : Except Fault (Option ModulePath)) :
    dueStatus s method named < 500 := by
  unfold dueStatus
  split <;> [skip; skip; split] <;> first | decide | split <;> decide

theorem serveModule_other (not_get : method ≠ "GET")
    (not_removal : method ≠ "DELETE" ∨ ∀ c, found ≠ .version c) :
    serveModule method found = pure (.bare 405) ∧
      dueStatus s method (.ok (some found)) = 405 ∧ ¬ Overlooked s method found := by
  refine ⟨?_, ?_, fun overlooked => ?_⟩
  · unfold serveModule
    split <;> simp_all
  · unfold dueStatus
    dsimp only
    split <;> simp_all
  · cases overlooked <;> simp_all

/-! ## Archives -/

theorem getArchive_overlooked_iff (written : archiveKey c = .ok key)
    (located : s.store.tree.locate true s.store.root = .ok anchor) :
    Overlooked s "GET" (.archive c) ↔ ∃ e, s.store.getArchive c = .error e ∧ e.Faulty := by
  obtain ⟨some_key, front, name, named, whole⟩ := s.store.path_of_archiveKey written
  rw [FileStore.getArchive_faulty_iff written,
    FileStore.get_faulty_iff some_key located named whole]
  constructor
  · intro overlooked
    cases overlooked with
    | unread _ there same refusal =>
      cases written.symm.trans same
      cases located.symm.trans there
      exact .inl refusal
    | noFile _ same leads stands solid =>
      cases written.symm.trans same
      exact .inr ⟨_, _, leads, stands, solid⟩
  · rintro (refusal | ⟨place, node, leads, stands, solid⟩)
    · exact .unread rfl located written refusal
    · exact .noFile rfl written leads stands solid

theorem deleteArchive_overlooked_iff (written : archiveKey c = .ok key)
    (located : s.store.tree.locate true s.store.root = .ok anchor) :
    Overlooked s "DELETE" (.version c) ↔ ∃ e, (s.store.deleteArchive c).1 = .error e := by
  obtain ⟨some_key, front, name, named, whole⟩ := s.store.path_of_archiveKey written
  simp only [FileStore.deleteArchive_error_iff written,
    FileStore.delete_faulty_iff some_key located named whole]
  constructor
  · intro overlooked
    cases overlooked with
    | undeleted _ there same refusal =>
      cases written.symm.trans same
      cases located.symm.trans there
      exact .inl refusal
    | directory _ same leads stands =>
      cases written.symm.trans same
      exact .inr ⟨_, leads, stands⟩
  · rintro (refusal | ⟨place, leads, stands⟩)
    · exact .undeleted rfl located written refusal
    · exact .directory rfl written leads stands

/-! ## Every request -/

theorem perform_list (source : String) :
    s.perform outside (serveModule "GET" (.list source)) w =
      (.text 200 (versionLines (s.index.versions source)), s, w) := rfl

theorem perform_info (c : Coordinate) :
    s.perform outside (serveModule "GET" (.info c)) w =
      (replyOf (fun info => documentReply info.toJson?) ((s.index.info c).mapError .index), s, w) :=
  rfl

theorem perform_manifest (c : Coordinate) :
    s.perform outside (serveModule "GET" (.manifest c)) w =
      (replyOf (.text 200) ((s.index.manifest c).mapError .index), s, w) := rfl

theorem perform_archive (c : Coordinate) :
    s.perform outside (serveModule "GET" (.archive c)) w =
      (replyOf (fun data => ⟨200, some "application/zip", none, data⟩)
        ((s.store.getArchive c).mapError .storage), s, w) := rfl

theorem perform_removal (c : Coordinate) :
    s.perform outside (serveModule "DELETE" (.version c)) w =
      (replyOf (fun _ => .bare 204) ((s.store.deleteArchive c).1.mapError .storage),
        { s with index := s.index.remove c, store := (s.store.deleteArchive c).2 }, w) := rfl

theorem duly_info (c : Coordinate) :
    Duly s "GET" (.info c)
      (replyOf (fun info => documentReply info.toJson?)
        ((s.index.info c).mapError .index)).status := by
  cases listed : s.index.row? c with
  | none =>
    refine .inr ⟨fun overlooked => ?_, ?_⟩
    · cases overlooked with
      | undated _ found _ => rw [listed] at found; cases found
    · simp only [Index.info, Index.row, dueStatus, listed]
      rfl
  | some row =>
    have served : s.index.info c = .ok ⟨row.coordinate.version, row.since⟩ := by
      simp only [Index.info, Index.row, listed]
      rfl
    rw [served]
    cases written : row.since.write? with
    | none =>
      refine .inl ⟨.undated rfl listed written, ?_⟩
      simp [replyOf, VersionInfo.toJson?, Moment.toJson?, written, documentReply, Http.Reply.text]
    | some text =>
      refine .inr ⟨fun overlooked => ?_, ?_⟩
      · cases overlooked with
        | undated _ found unwritten =>
          cases listed.symm.trans found
          rw [written] at unwritten
          cases unwritten
      · simp [replyOf, VersionInfo.toJson?, Moment.toJson?, written, documentReply, Http.Reply.json,
          dueStatus, listed]

theorem duly_manifest (c : Coordinate) :
    Duly s "GET" (.manifest c)
      (replyOf (.text 200) ((s.index.manifest c).mapError .index)).status := by
  refine .inr ⟨nofun, ?_⟩
  cases listed : s.index.row? c with
  | none =>
    simp only [Index.manifest, Index.row, dueStatus, listed]
    rfl
  | some row =>
    simp only [Index.manifest, Index.row, dueStatus, listed]
    rfl

theorem duly_archive (written : archiveKey c = .ok key)
    (located : s.store.tree.locate true s.store.root = .ok anchor) :
    Duly s "GET" (.archive c)
      (replyOf (fun data => ⟨200, some "application/zip", none, data⟩)
        ((s.store.getArchive c).mapError .storage)).status := by
  rw [Duly, getArchive_overlooked_iff written located]
  by_cases faulty : ∃ e, s.store.getArchive c = .error e ∧ e.Faulty
  · refine .inl ⟨faulty, ?_⟩
    obtain ⟨e, failed, faulty⟩ := faulty
    rw [failed]
    exact status_of_faulty faulty
  · refine .inr ⟨faulty, ?_⟩
    rcases FileStore.getArchive_of_sound written faulty with ⟨data, got⟩ | missing
    · rw [dueStatus, got]
      rfl
    · rw [dueStatus, missing]
      rfl

theorem duly_removal (written : archiveKey c = .ok key)
    (located : s.store.tree.locate true s.store.root = .ok anchor) :
    Duly s "DELETE" (.version c)
      (replyOf (fun _ => .bare 204) ((s.store.deleteArchive c).1.mapError .storage)).status := by
  rw [Duly, deleteArchive_overlooked_iff written located]
  cases done : (s.store.deleteArchive c).1 with
  | ok _ => exact .inr ⟨by simp, rfl⟩
  | error e =>
    obtain ⟨-, faulty⟩ := (FileStore.deleteArchive_error_iff written).mp done
    exact .inl ⟨⟨e, rfl⟩, status_of_faulty faulty⟩

/-- A path that names something is answered duly. -/
theorem serveModule_duly (located : s.store.tree.locate true s.store.root = .ok anchor)
    (keyed : ∀ c, found = .archive c ∨ found = .version c → ∃ key, archiveKey c = .ok key) :
    ∃ reply next, s.perform outside (serveModule method found) w = (reply, next, w) ∧
      Duly s method found reply.status := by
  by_cases get : method = "GET"
  · subst get
    cases found with
    | list source => exact ⟨_, s, perform_list source, .inr ⟨nofun, rfl⟩⟩
    | info c => exact ⟨_, s, perform_info c, duly_info c⟩
    | manifest c => exact ⟨_, s, perform_manifest c, duly_manifest c⟩
    | archive c =>
      obtain ⟨key, written⟩ := keyed c (.inl rfl)
      exact ⟨_, s, perform_archive c, duly_archive written located⟩
    | version c =>
      refine ⟨_, s, rfl, .inr ⟨fun overlooked => ?_, rfl⟩⟩
      cases overlooked with
      | undeleted other | directory other => exact absurd other (by decide)
  · by_cases removal : method = "DELETE" ∧ ∃ c, found = .version c
    · obtain ⟨rfl, c, rfl⟩ := removal
      obtain ⟨key, written⟩ := keyed c (.inr rfl)
      exact ⟨_, _, perform_removal c, duly_removal written located⟩
    · have not_removal : method ≠ "DELETE" ∨ ∀ c, found ≠ .version c := by
        by_cases delete : method = "DELETE"
        · exact .inr fun c same => removal ⟨delete, c, same⟩
        · exact .inl delete
      obtain ⟨served, due, seen⟩ := serveModule_other (s := s) get not_removal
      rw [served]
      exact ⟨_, s, rfl, .inr ⟨seen, due.symm⟩⟩

theorem located_of_health (ready : s.store.health = .ok ()) :
    ∃ anchor, s.store.tree.locate true s.store.root = .ok anchor := by
  rw [FileStore.health] at ready
  cases located : s.store.tree.locate true s.store.root with
  | error e => rw [located] at ready; cases ready
  | ok anchor => exact ⟨anchor, rfl⟩

/-! ## A store that nobody else writes to -/

/-- Why a key that has no archive is no missing one where nobody makes links. -/
inductive Awkward (store : FileStore) (anchor : Location) (key : String) : Prop
  | improper : FileStore.isRelative key = false → Awkward store anchor key
  | blocked (e : FileFault) : store.tree.locate false (store.path key) = .error e →
      e ≠ .notFound → Awkward store anchor key
  | directory : store.tree.at? (anchor ++ FileTree.names (FileTree.steps key)) = some .directory →
      Awkward store anchor key

theorem overlooked_of_keeps {base : FileTree} (keeps : Keeps base anchor s.store.root s)
    (overlooked : Overlooked s method found) :
    (∃ c, found = .info c) ∨ ∃ c key, (found = .archive c ∨ found = .version c) ∧
      archiveKey c = .ok key ∧ Awkward s.store anchor key := by
  obtain ⟨-, bare, tended⟩ := keeps
  have of_refusal {anchor' : Location} {key : String}
      (located : s.store.tree.locate true s.store.root = .ok anchor')
      (refusal : s.store.Refusal anchor' key) : Awkward s.store anchor key := by
    cases located.symm.trans (tended.locate_root bare)
    rcases FileStore.refusal_of_tended tended bare refusal with improper | ⟨e, failed, other⟩
    · exact .improper improper
    · exact .blocked e failed other
  have of_place {follow : Bool} {key : String} {place : Location} {node : Node}
      (leads : s.store.tree.locate follow (s.store.path key) = .ok place)
      (stands : s.store.tree.at? place = some node) (solid : ∀ data, node ≠ .file data) :
      Awkward s.store anchor key := by
    cases relative : FileStore.isRelative key with
    | false => exact .improper relative
    | true =>
      obtain ⟨-, walked⟩ := FileTree.locate_eq_ok_iff.mp leads
      obtain ⟨rfl, -⟩ := tended.rooted_eq bare (.inl rfl) (.inl (FileStore.steps_ne_nil key))
        (FileStore.not_up_of_isRelative relative) walked
      cases node with
      | file data => exact absurd rfl (solid data)
      | directory => exact .directory stands
      | link fromTop target => exact absurd stands (tended.solid _ fromTop target)
  cases overlooked with
  | undated => exact .inl ⟨_, rfl⟩
  | unread _ located written refusal =>
    exact .inr ⟨_, _, .inl rfl, written, of_refusal located refusal⟩
  | noFile _ written leads stands solid =>
    exact .inr ⟨_, _, .inl rfl, written, of_place leads stands solid⟩
  | undeleted _ located written refusal =>
    exact .inr ⟨_, _, .inr rfl, written, of_refusal located refusal⟩
  | directory _ written leads stands =>
    exact .inr ⟨_, _, .inr rfl, written, of_place leads stands nofun⟩

/-! ## All of it -/

/-- Every request for a path of the module protocol is answered, and with a fault of the server if
and only if it is overlooked. Every other one gets the status that is due. If nobody else writes to
the store, an archive is overlooked only for a key that is no plain path, for one that runs over a
file or is too long, or for one that a directory stands at. -/
theorem fallback_statuses {σ : Type} (outside : Outside σ) (s : State) (w : σ)
    (ready : s.store.health = .ok ()) (method path : String) :
    ∃ reply next, s.perform outside (serveOther method path) w = (reply, next, w) ∧
      (500 ≤ reply.status ↔
        ∃ found, ModulePath.parse path = .ok (some found) ∧ Overlooked s method found) ∧
      (reply.status < 500 → reply.status = dueStatus s method (ModulePath.parse path)) ∧
      ∀ base anchor found, Keeps base anchor s.store.root s → Overlooked s method found →
        (∃ c, found = .info c) ∨ ∃ c key, (found = .archive c ∨ found = .version c) ∧
          archiveKey c = .ok key ∧ Awkward s.store anchor key := by
  obtain ⟨anchor, located⟩ := located_of_health ready
  have kept : ∀ base anchor found, Keeps base anchor s.store.root s → Overlooked s method found →
      (∃ c, found = .info c) ∨ ∃ c key, (found = .archive c ∨ found = .version c) ∧
        archiveKey c = .ok key ∧ Awkward s.store anchor key :=
    fun base anchor found keeps => overlooked_of_keeps keeps
  cases named : ModulePath.parse path with
  | error e =>
    have refused := status_of_textFault (ModulePath.parse_error named)
    refine ⟨_, s, by rw [serveOther, named]; rfl, ?_, fun _ => refused, kept⟩
    rw [refused]
    simp
  | ok read =>
    cases read with
    | none =>
      refine ⟨_, s, by rw [serveOther, named]; rfl, ?_, fun _ => rfl, kept⟩
      simp [Http.Reply.text]
    | some found =>
      obtain ⟨reply, next, performed, duly⟩ :
          ∃ reply next, s.perform outside (serveModule method found) w = (reply, next, w) ∧
            Duly s method found reply.status :=
        serveModule_duly located fun c => ModulePath.keyed_of_parse named
      have due := dueStatus_lt s method (.ok (some found))
      refine ⟨reply, next, by rw [serveOther, named]; exact performed, ?_, ?_, kept⟩
      · rcases duly with ⟨overlooked, status⟩ | ⟨seen, status⟩
        · rw [status]
          exact iff_of_true (Nat.le_refl 500) ⟨found, rfl, overlooked⟩
        · refine iff_of_false (by omega) ?_
          rintro ⟨_, same, overlooked⟩
          cases same
          exact seen overlooked
      · intro small
        rcases duly with ⟨-, status⟩ | ⟨-, status⟩
        · omega
        · exact status

end

/-! ## One archive, and keys beside it -/

namespace Sample

open FileTree (checkPath isLongName)

/-- A proxy that holds one version of `m`, with a file for its archive. -/
def holding : State := shelved released "v1.0.0.zip" "archive".toUTF8

theorem health_holding : holding.store.health = .ok () := by
  have located : holding.store.tree.locate true holding.store.root = .ok ["srv"] :=
    located_shelf "v1.0.0.zip" "archive".toUTF8
  have stands : holding.store.tree.at? ["srv"] = some .directory := rfl
  rw [FileStore.health, located]
  exact if_pos stands

theorem got_holding : holding.store.getArchive released = .ok "archive".toUTF8 :=
  getArchive_shelf _ fits_released

/-- The key of a coordinate whose source leads upward. -/
theorem overlooked_upward : Overlooked holding "GET" (.archive ⟨"a/../b", "v1"⟩) :=
  .unread rfl (located_shelf "v1.0.0.zip" "archive".toUTF8)
    (show archiveKey ⟨"a/../b", "v1"⟩ = .ok "a/../b/@v/v1.zip" from rfl) (.improper (by decide))

/-- A key that runs over the file of the archive. -/
theorem overlooked_beyond : Overlooked holding "GET" (.archive ⟨"m", "v1.0.0.zip/x"⟩) := by
  have written : archiveKey ⟨"m", "v1.0.0.zip/x"⟩ = .ok "m/@v/v1.0.0.zip/x.zip" := rfl
  have path : holding.store.path "m/@v/v1.0.0.zip/x.zip" =
      ["", "srv", "m", "@v", "v1.0.0.zip", "x.zip"] := by decide +kernel
  have sendable : checkPath ["", "srv", "m", "@v", "v1.0.0.zip", "x.zip"] = .ok () := rfl
  have short : isLongName "srv" = false ∧ isLongName "m" = false ∧ isLongName "@v" = false ∧
      isLongName "v1.0.0.zip" = false := by decide
  have blocked : holding.store.tree.locate false (holding.store.path "m/@v/v1.0.0.zip/x.zip") =
      .error .notDirectory := by
    rw [path]
    simp [holding, shelved, State.start, shelf, FileTree.locate, FileTree.walk, FileTree.at?,
      FileTree.lookup_entry, sendable, short, bind, Except.bind]
  exact .unread rfl (located_shelf "v1.0.0.zip" "archive".toUTF8) written
    (.blocked _ blocked (by decide))

end Sample

theorem fallback_statuses_holding :
    Sample.holding.store.health = .ok () ∧
      ∃ reply next, Sample.holding.perform Sample.isolated
        (serveOther "GET" "/m/@v/v1.0.0.zip") () = (reply, next, ()) ∧ reply.status = 200 := by
  refine ⟨Sample.health_holding, ?_⟩
  have named : ModulePath.parse "/m/@v/v1.0.0.zip" = .ok (some (.archive Sample.released)) := by
    decide +kernel
  obtain ⟨reply, next, performed, faulty_iff, due, -⟩ :=
    fallback_statuses Sample.isolated Sample.holding () Sample.health_holding "GET"
      "/m/@v/v1.0.0.zip"
  have small : reply.status < 500 := by
    by_contra large
    obtain ⟨found, same, overlooked⟩ := faulty_iff.mp (Nat.le_of_not_lt large)
    cases named.symm.trans same
    obtain ⟨e, failed, -⟩ := (getArchive_overlooked_iff (FileStore.archiveKey_iff.mpr rfl)
      (Sample.located_shelf _ _)).mp overlooked
    rw [Sample.got_holding] at failed
    cases failed
  refine ⟨reply, next, performed, ?_⟩
  rw [due small, named, dueStatus, Sample.got_holding]
  rfl

/-- A path that leads upward, and one below a stored archive, have no archive, and the server takes
the blame for both. -/
theorem client_paths_blamed_on_server :
    Sample.holding.store.health = .ok () ∧
      ∀ path ∈ ["/a/../b/@v/v1.zip", "/m/@v/v1.0.0.zip/x.zip"],
        ∃ reply, Sample.holding.perform Sample.isolated (serveOther "GET" path) () =
          (reply, Sample.holding, ()) ∧ reply.status = 500 := by
  have answered {path : String} {c : Coordinate} {key : String}
      (named : ModulePath.parse path = .ok (some (.archive c))) (written : archiveKey c = .ok key)
      (overlooked : Overlooked Sample.holding "GET" (.archive c)) :
      ∃ reply, Sample.holding.perform Sample.isolated (serveOther "GET" path) () =
        (reply, Sample.holding, ()) ∧ reply.status = 500 := by
    have duly : Duly Sample.holding "GET" (.archive c) _ :=
      duly_archive written (Sample.located_shelf "v1.0.0.zip" "archive".toUTF8)
    rcases duly with ⟨-, status⟩ | ⟨seen, -⟩
    · exact ⟨_, (perform_get named).trans (perform_archive c), status⟩
    · exact absurd overlooked seen
  refine ⟨Sample.health_holding, fun path among => ?_⟩
  rcases List.mem_cons.mp among with rfl | among
  · exact answered (c := ⟨"a/../b", "v1"⟩) (by decide +kernel) rfl Sample.overlooked_upward
  · obtain rfl := List.mem_singleton.mp among
    exact answered (c := ⟨"m", "v1.0.0.zip/x"⟩) (by decide +kernel) rfl Sample.overlooked_beyond

end Proxy

end ModuleDepot
