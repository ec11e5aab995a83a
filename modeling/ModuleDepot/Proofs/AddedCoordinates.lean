import ModuleDepot.Proofs.ArchiveMap
import ModuleDepot.Proofs.CycleArchives
import ModuleDepot.Proofs.ModuleRemoval
import ModuleDepot.Proofs.RegistryFallback

/-!
What a cycle may add to an index. A coordinate of a registry's answer is not checked when it is
read, and neither later: only its key is, when its archive is stored. So what is added need not be
accepted; but if it is, then its paths are read as its own, and what they name is served.
-/

namespace ModuleDepot

/-- The key of an archive tells of its source that it is there and begins with no slash. The rest
of what is checked is left. -/
theorem Coordinate.accepted_iff_of_source {c : Coordinate} (some_source : c.source ≠ "")
    (begins : c.source.toList.head? ≠ some '/') :
    c.Accepted ↔ c.version ≠ "" ∧ c.source.toList.getLast? ≠ some '/' ∧
      ∀ letter ∈ c.source.toList ++ c.version.toList, isForbidden letter = false := by
  rw [accepted_iff_sound]
  constructor
  · intro sound
    exact ⟨sound.some_version, sound.ends, fun letter member =>
      (isForbidden_eq_false_iff letter).mpr (sound.clean letter member)⟩
  · rintro ⟨some_version, ends, clean⟩
    exact ⟨some_source, some_version, begins, ends, fun letter member =>
      (isForbidden_eq_false_iff letter).mp (clean letter member)⟩

namespace ModulePath

open EscapedPath (escape)

/-- The paths that are written with a coordinate's escaped halves are read as what they name. -/
structure ReadBack (c : Coordinate) (source version : String) : Prop where
  list : parse ("/" ++ source ++ "/@v/list") = .ok (some (.list c.source))
  info : parse ("/" ++ source ++ "/@v/" ++ version ++ ".info") = .ok (some (.info c))
  manifest : parse ("/" ++ source ++ "/@v/" ++ version ++ ".mod") = .ok (some (.manifest c))
  archive : parse ("/" ++ source ++ "/@v/" ++ version ++ ".zip") = .ok (some (.archive c))
  version : ¬ Reserved c.version →
    parse ("/" ++ source ++ "/@v/" ++ version) = .ok (some (.version c))

theorem readBack_of_accepted {c : Coordinate} {source version : String} (accepted : c.Accepted)
    (source_written : escape c.source = .ok source)
    (version_written : escape c.version = .ok version) : ReadBack c source version := by
  obtain ⟨some_source, -, begins⟩ := accepted.filled
  have written : ∀ below,
      Written ("/" ++ source ++ "/@v/" ++ below) c.source below :=
    fun below => ⟨1, source, source_written, rfl⟩
  have lists : Written ("/" ++ source ++ "/@v/list") c.source "list" := by
    have whole : "/" ++ source ++ "/@v/" ++ "list" = "/" ++ source ++ "/@v/list" := by
      rw [← String.toList_inj]
      simp
    exact whole ▸ written "list"
  have document : ∀ {ending : String} {kind}, (ending.toList, kind) ∈ endings →
      parse ("/" ++ source ++ "/@v/" ++ version ++ ending) = .ok (some (kind c)) := by
    intro ending kind among
    refine (parse_eq_document_iff among).mpr ⟨accepted, version, version_written, ?_⟩
    rw [String.ofList_toList, String.append_assoc]
    exact written _
  exact
    { list := parse_eq_list_iff.mpr ⟨some_source, begins, lists⟩
      info := document (by simp [endings])
      manifest := document (by simp [endings])
      archive := document (by simp [endings])
      version := parse_eq_version accepted source_written version_written }

/-- No path is read as a coordinate that is not accepted, or as a document of it. -/
theorem unread_of_refused {c : Coordinate} (refused : ¬ c.Accepted) (path : String) :
    parse path ≠ .ok (some (.version c)) ∧
      ∀ document ∈ endings, parse path ≠ .ok (some (document.2 c)) := by
  constructor
  · intro named
    exact refused (parse_eq_version_iff.mp named).1
  · intro document among named
    exact refused ((parse_eq_document_iff among).mp named).1

end ModulePath

namespace Proxy

open Procedure
open EscapedPath (escape)
open ModulePath (ReadBack Reserved parse)

variable {σ : Type} {outside : Outside σ} {r : Reconciler} {s next : State} {w v : σ}
  {c : Coordinate} {source version path : String}

/-! ## What is served -/

/-- What the protocol answers for a module that has a row. -/
structure Served (outside : Outside σ) (s : State) (w : σ) (row : IndexRow)
    (source version : String) : Prop where
  member : row.coordinate.version ∈ s.index.versions row.coordinate.source
  list : s.perform outside (serveOther "GET" ("/" ++ source ++ "/@v/list")) w =
    (.text 200 (versionLines (s.index.versions row.coordinate.source)), s, w)
  info : s.perform outside (serveOther "GET" ("/" ++ source ++ "/@v/" ++ version ++ ".info")) w =
    (documentReply (VersionInfo.toJson? ⟨row.coordinate.version, row.since⟩), s, w)
  manifest : s.perform outside (serveOther "GET" ("/" ++ source ++ "/@v/" ++ version ++ ".mod")) w =
    (.text 200 row.manifest, s, w)

theorem perform_get (named : parse path = .ok (some found)) :
    s.perform outside (serveOther "GET" path) w =
      s.perform outside (serveModule "GET" found) w := by
  rw [serveOther, named]

theorem served_of_row {row : IndexRow} (listed : s.index.row? c = some row)
    (read : ReadBack c source version) : Served outside s w row source version := by
  have own : row.coordinate = c := by simpa using List.find?_some listed
  have among : row ∈ s.index.rows := List.mem_of_find?_eq_some listed
  subst own
  have found : s.index.row row.coordinate = .ok row := by rw [Index.row, listed]
  refine ⟨?_, ?_, ?_, ?_⟩
  · rw [Index.versions, Version.sort, List.mem_mergeSort]
    exact List.mem_map_of_mem (List.mem_filter.mpr ⟨among, by simp⟩)
  · rw [perform_get read.list]
    rfl
  · rw [perform_get read.info]
    change (replyOf _ ((s.index.info row.coordinate).mapError .index), s, w) = _
    rw [Index.info, found]
    rfl
  · rw [perform_get read.manifest]
    change (replyOf _ ((s.index.manifest row.coordinate).mapError .index), s, w) = _
    rw [Index.manifest, found]
    rfl

/-- What the protocol answers for a module whose archive is stored, and what it removes. -/
structure Kept (outside : Outside σ) (s : State) (w : σ) (c : Coordinate)
    (source version : String) : Prop where
  archive : ∃ data, s.store.getArchive c = .ok data ∧
    s.perform outside (serveOther "GET" ("/" ++ source ++ "/@v/" ++ version ++ ".zip")) w =
      (⟨200, some "application/zip", none, data⟩, s, w)
  removal : ¬ Reserved c.version → ∃ next,
    s.perform outside (serveOther "DELETE" ("/" ++ source ++ "/@v/" ++ version)) w =
      (.bare 204, next, w) ∧ Removed c (.bare 204) next

theorem kept_of_keeps {base : FileTree} {anchor : Location} {root : List String}
    {data : ByteArray} (keeps : Keeps base anchor root s)
    (stored : s.store.getArchive c = .ok data) (read : ReadBack c source version) :
    Kept outside s w c source version := by
  obtain ⟨rfl, bare, tended⟩ := keeps
  obtain ⟨done, missing⟩ := FileStore.deleteArchive_of_tended tended bare stored
  constructor
  · refine ⟨data, stored, ?_⟩
    rw [perform_get read.archive]
    change (replyOf _ ((s.store.getArchive c).mapError .storage), s, w) = _
    rw [stored]
    rfl
  · intro free
    exact ⟨_, perform_delete_done (read.version free) done, rfl, s.index.not_lists_remove c,
      missing⟩

/-! ## What is added -/

theorem asked_of_opening {held : SerialRanges} {needed : List SerialCoordinate}
    {rest : List (Event Call Answer)} {y : State × σ}
    (passes : Passes (handled (State.answer outside)) (opening held needed ++ rest) (s, w) y) :
    (outside.askRegistry s.index.serials w).1 = .ok needed := by
  cases passes with
  | call counted passes =>
    cases counted
    cases passes with
    | call read passes =>
      cases read
      cases passes with
      | call asked _ => exact congrArg Prod.fst asked

/-- What a cycle adds was asked for, and its archive was stored under a key. -/
theorem added_cases {report : CycleReport}
    (ran : s.perform outside r.runOnce w = (report, next, v)) (added : next.index.Lists c)
    (unlisted : ¬ s.index.Lists c) :
    (∃ needed, (outside.askRegistry s.index.serials w).1 = .ok needed ∧
        ∃ x ∈ needed, x.coordinate = c) ∧
      (∃ key, c.archiveKey = .ok key ∧ FileStore.isRelative key = true) ∧
      ∀ {base anchor}, Keeps base anchor s.store.root s →
        Keeps base anchor s.store.root next ∧ ∃ data, next.store.getArchive c = .ok data := by
  obtain ⟨events, trace, passes⟩ := trace_of_run (State.answer outside) r.runOnce (s, w)
  have ended : run (State.answer outside) r.runOnce (s, w) = (report, next, v) := ran
  rw [ended] at trace passes
  have course := cycleCourse_of_trace trace
  obtain ⟨a, answer, put, rfl⟩ := putRow_of_lists passes added unlisted
  obtain ⟨held, needed, rest, data, split, among, stored⟩ := course.stored_of_putRow put
  refine ⟨⟨needed, ?_, among⟩, isRelative_of_stored passes stored, ?_⟩
  · rw [split] at passes
    exact asked_of_opening passes
  · intro base anchor keeps
    exact ⟨(keeps.passes (c := a.coordinate) passes course.deletes_nothing).1,
      keeps.stored passes course.deletes_nothing stored⟩

/-- Whatever a registry answers, a cycle adds nothing but what the answer names, and only what has
a key in the store. So what it adds is accepted unless its version is empty, its source ends in a
slash or a letter of it is forbidden, and then no path is read as it. If it is accepted, its paths
are read as its own, and what they name is served; and in a directory that the store has for
itself, the archive is served and the module can be removed, unless its version is spelled like
another resource. All paths are served here as those of the module protocol; no request comes so far
for the source `v1/problems`, for one below it, or for a coordinate with a `?` or a `#`. -/
theorem added_served_if_spelled (outside : Outside σ) (r : Reconciler) (s next : State) (w v : σ)
    (report : CycleReport) (c : Coordinate)
    (ran : s.perform outside r.runOnce w = (report, next, v)) (added : next.index.Lists c)
    (unlisted : ¬ s.index.Lists c) :
    (∃ needed, (outside.askRegistry s.index.serials w).1 = .ok needed ∧
        ∃ x ∈ needed, x.coordinate = c) ∧
      (c.Accepted ↔ c.version ≠ "" ∧ c.source.toList.getLast? ≠ some '/' ∧
        ∀ letter ∈ c.source.toList ++ c.version.toList, Coordinate.isForbidden letter = false) ∧
      (¬ c.Accepted → ∀ path, parse path ≠ .ok (some (.version c)) ∧
        ∀ document ∈ ModulePath.endings, parse path ≠ .ok (some (document.2 c))) ∧
      (c.Accepted → ∃ source version row, escape c.source = .ok source ∧
        escape c.version = .ok version ∧ next.index.row? c = some row ∧
        ReadBack c source version ∧ Served outside next v row source version ∧
        ∀ (base : FileTree) (anchor : Location), base.Bare s.store.root anchor →
          base.Tended anchor s.store.tree → Kept outside next v c source version) := by
  obtain ⟨named, ⟨key, keyed, relative⟩, keeps⟩ := added_cases ran added unlisted
  -- The key is all that was looked at, and it tells only how the source begins.
  obtain ⟨some_source, begins⟩ := FileStore.source_of_isRelative keyed relative
  refine ⟨named, Coordinate.accepted_iff_of_source some_source begins,
    ModulePath.unread_of_refused, fun accepted => ?_⟩
  obtain ⟨source, version, folded, folded', -⟩ := (Coordinate.archiveKey_eq_ok_iff c key).mp keyed
  have read := ModulePath.readBack_of_accepted accepted folded folded'
  have some_row : next.index.row? c ≠ none := by
    rw [Ne, Index.row?_eq_none_iff, not_not]
    exact added
  obtain ⟨row, found⟩ := Option.ne_none_iff_exists'.mp some_row
  refine ⟨source, version, row, folded, folded', found, read, served_of_row found read, ?_⟩
  intro base anchor bare tended
  obtain ⟨kept, data, stored⟩ := keeps ⟨rfl, bare, tended⟩
  exact kept_of_keeps kept stored read

namespace Sample

open FileStore (Unhindered stagingName)
open FileStore.Sample (depot)
open FileTree (IsName checkPath isLongName)

/-- What stands outside a proxy that asks the instances of a registry over a network. -/
def connected {σ : Type} (instances : RegistryInstances)
    (network : Http.Request → σ → Option Http.Response × σ) : Outside σ where
  exchange := network
  askRegistry held := run network (instances.needed held)

theorem unhindered_file {c : Coordinate} {key file fresh : String} (fits : Fits c key file)
    (staged : isLongName (stagingName file fresh) = false)
    (beside : checkPath ["srv", "m", "@v", stagingName file fresh] = .ok ()) :
    Unhindered depot.tree fresh ["", "srv", "m", "@v"] file ["srv"] ["m", "@v"] ["srv"] where
  grounded := FileTree.grounded_of_entries (by decide +kernel)
  spelled := by decide
  ends := FileTree.endsInName_concat (by unfold IsName; decide) ["", "srv", "m"]
  leads := FileTree.locate_names FileStore.Sample.bare_depot.located
  inside := rfl
  brief n among := by
    simp only [List.mem_cons, List.not_mem_nil, or_false] at among
    rcases among with rfl | rfl <;> exact ⟨by unfold IsName; decide, by decide⟩
  gap first last := by
    cases last
    rfl
  named := fits.named
  sendable := fits.sendable
  short := staged
  beside := beside
  unused := by simp [depot, FileTree.at?, List.lookup_cons]
  clear := by simp [depot, FileTree.at?, List.lookup_cons]

theorem put_depot {c : Coordinate} {key file fresh : String} (data : ByteArray)
    (fits : Fits c key file) (staged : isLongName (stagingName file fresh) = false)
    (beside : checkPath ["srv", "m", "@v", stagingName file fresh] = .ok ()) :
    depot.putArchive fresh c data = (.ok (), shelf file data) := by
  have way := unhindered_file fits staged beside
  obtain ⟨some_key, -⟩ := FileStore.steps_of_archiveKey fits.written
  have path : depot.path key = ["", "srv", "m", "@v"] ++ [file] := by
    rw [FileStore.path, fits.split]
    rfl
  have resolved := way.resolve_eq some_key fits.relative FileStore.Sample.bare_depot.located
    List.prefix_rfl path (by simp [depot, FileTree.at?])
  simp only [FileStore.putArchive, fits.written, way.put_eq resolved]
  simp [shelf, depot, FileTree.dug, FileTree.set, FileTree.erase]

/-- A registry that always answers with one document, and an open proxy with one archive. -/
def answering (document : Json.Value) (r : Http.Request) (w : Unit) :
    Option Http.Response × Unit :=
  if r.method = "POST" then (some ⟨200, (Json.write document).toUTF8⟩, w)
  else (some ⟨200, archive⟩, w)

/-- A new proxy. -/
def vacant : State := State.start depot

def instances : RegistryInstances := ⟨["http://r"]⟩

/-- A proxy's surroundings in which one module is on offer. -/
def offering (x : SerialCoordinate) : Outside Unit :=
  connected instances (answering (serialsToJson [x]))

theorem asked_offering (x : SerialCoordinate) (held : SerialRanges) :
    (offering x).askRegistry held () = (.ok [x], ()) := by
  let url := "http://r" ++ RegistryInstances.questionPath
  have reachable : (Http.destination url).toOption.isSome = true := by decide +kernel
  obtain ⟨u, goes⟩ := Option.isSome_iff_exists.mp reachable
  let response : Http.Response := ⟨200, (Json.write (serialsToJson [x])).toUTF8⟩
  have document : RegistryInstances.document? response = some (serialsToJson [x]) := by
    simp only [response, RegistryInstances.document?, fromUTF8?_toUTF8, Option.bind_some,
      readStorable?_answer]
  have told : Trace
      (RegistryInstances.ask instances RegistryInstances.questionPath held.toQuestion)
      [⟨RegistryInstances.posting u held.toQuestion, some response⟩]
      (.ok (serialsToJson [x])) :=
    RegistryInstances.trace_askFrom_ok_iff.mpr ⟨[], "http://r", [], _, rfl, by simp,
      .believed (ok_of_toOption goes) rfl document, rfl⟩
  refine run_of_trace (RegistryInstances.trace_needed_iff.mpr ⟨_, told, ?_⟩)
    (Passes.call rfl (Passes.stay ()))
  simp only [Except.bind, serialsOfJson_toJson, mapError_ok]

/-- The calls of a cycle that brings one version of `m` in. -/
def bringing (x : SerialCoordinate) (request : Http.Request) : List (Event Call Answer) :=
  opening .empty [x] ++
    [⟨.findSerial x.coordinate, .ok none⟩, ⟨.exchange request, some ⟨200, archive⟩⟩,
      ⟨.putArchive x.coordinate archive, .ok ()⟩,
      ⟨.putRow ⟨x.coordinate, x.serial, "module m\n"⟩, .ok ()⟩,
      ⟨.count (.downloads .openProxy), ()⟩]

theorem perform_bringing {x : SerialCoordinate} {request : Http.Request} {key file : String}
    (trace : Trace reconciler.runOnce (bringing x request) ⟨1, 0, 0, 1, 0, false⟩)
    (sent : request.method = "GET") (fits : Fits x.coordinate key file)
    (staged : isLongName (stagingName file vacant.freshName) = false)
    (beside : checkPath ["srv", "m", "@v", stagingName file vacant.freshName] = .ok ()) :
    ∃ next, vacant.perform (offering x) reconciler.runOnce () =
        (⟨1, 0, 0, 1, 0, false⟩, next, ()) ∧
      next.index = ⟨[⟨x.coordinate, x.serial, "module m\n", .ofNanos 1⟩]⟩ := by
  -- The clock moves when the archive is stored and when the row is put.
  let begun : State := { vacant with counts := Counts.zero.bump .cycles }
  let stored : State := { begun with store := shelf file archive, clock := 1 }
  let listed : State :=
    { stored with index := ⟨[⟨x.coordinate, x.serial, "module m\n", .ofNanos 1⟩]⟩, clock := 2 }
  let next : State := { listed with counts := listed.counts.bump (.downloads .openProxy) }
  let service := handled (State.answer (offering x))
  have nothing : SerialRanges.empty = Index.empty.serials := by
    simp [Index.serials, Index.empty, SerialRanges.compress, SerialRanges.dropRepeats]
  have held : service .heldSerials (begun, ()) (.ok .empty) (begun, ()) := by
    rw [nothing]
    rfl
  have asked : service (.askRegistry .empty) (begun, ()) (.ok [x]) (begun, ()) := by
    change ((_ : _ × _ × _)) = _
    simp only [State.answer, asked_offering]
  have fetched : service (.exchange request) (begun, ()) (some ⟨200, archive⟩) (begun, ()) := by
    have answered : (offering x).exchange request () = (some ⟨200, archive⟩, ()) := by
      simp [offering, connected, answering, sent]
    change State.answer _ _ _ = _
    simp only [State.answer, answered]
  have kept : service (.putArchive x.coordinate archive) (begun, ()) (.ok ()) (stored, ()) := by
    have put : begun.store.putArchive begun.freshName x.coordinate archive =
        (.ok (), shelf file archive) := put_depot archive fits staged beside
    change State.answer _ _ _ = _
    simp only [State.answer, put]
    rfl
  have recorded : service (.putRow ⟨x.coordinate, x.serial, "module m\n"⟩) (stored, ()) (.ok ())
      (listed, ()) := rfl
  have counted : service (.count (.downloads .openProxy)) (listed, ()) () (next, ()) := rfl
  refine ⟨next, run_of_trace trace ?_, rfl⟩
  refine Passes.call rfl (Passes.call held (Passes.call asked ?_))
  refine Passes.call rfl (Passes.call fetched (Passes.call kept ?_))
  exact Passes.call recorded (Passes.call counted (Passes.stay _))

/-- A version with a mark in it, which the constructor refuses. -/
def marked : SerialCoordinate := ⟨⟨"m", "v1@beta"⟩, 1⟩

def markedRequest : Http.Request :=
  ⟨"GET", address ["m".toList, "@v".toList, "v1@beta.zip".toList], [], ""⟩

theorem trace_wanted : Trace reconciler.runOnce (bringing wanted request) ⟨1, 0, 0, 1, 0, false⟩ :=
  Trace.ask (Trace.ask (Trace.ask (Trace.ask (Trace.ask (Trace.ask (Trace.ask (Trace.ask
    (Trace.done _))))))))

theorem trace_marked :
    Trace reconciler.runOnce (bringing marked markedRequest) ⟨1, 0, 0, 1, 0, false⟩ :=
  Trace.ask (Trace.ask (Trace.ask (Trace.ask (Trace.ask (Trace.ask (Trace.ask (Trace.ask
    (Trace.done _))))))))

theorem fits_wanted : Fits wanted.coordinate "m/@v/v.zip" "v.zip" where
  written := rfl
  split := by decide
  relative := by decide
  short := by decide
  named := by
    unfold IsName
    decide
  sendable := rfl

theorem fits_marked : Fits marked.coordinate "m/@v/v1@beta.zip" "v1@beta.zip" where
  written := rfl
  split := by decide
  relative := by decide
  short := by decide
  named := by
    unfold IsName
    decide
  sendable := rfl

end Sample

theorem added_served_if_spelled_wanted :
    ∃ next, Sample.vacant.perform (Sample.offering Sample.wanted) Sample.reconciler.runOnce () =
        (⟨1, 0, 0, 1, 0, false⟩, next, ()) ∧
      next.index.Lists Sample.wanted.coordinate ∧
      Served (Sample.offering Sample.wanted) next () ⟨⟨"m", "v"⟩, 1, "module m\n", .ofNanos 1⟩
        "m" "v" ∧
      Kept (Sample.offering Sample.wanted) next () Sample.wanted.coordinate "m" "v" := by
  obtain ⟨next, ran, index⟩ :=
    Sample.perform_bringing Sample.trace_wanted rfl Sample.fits_wanted (by decide) rfl
  have added : next.index.Lists Sample.wanted.coordinate := by
    rw [index]
    decide
  obtain ⟨-, -, -, serves⟩ := added_served_if_spelled (Sample.offering Sample.wanted)
    Sample.reconciler Sample.vacant next () () _ Sample.wanted.coordinate ran added
    (Index.not_lists_empty _)
  obtain ⟨source, version, row, folded, folded', found, -, served, kept⟩ :=
    serves (by decide +kernel)
  obtain rfl : "m" = source := Except.ok.inj folded
  obtain rfl : "v" = version := Except.ok.inj folded'
  have bare := FileStore.Sample.bare_depot
  rw [index] at found
  cases found
  exact ⟨next, ran, added, served, kept _ _ bare (FileTree.tended_base bare)⟩

/-- A version with a mark in it comes in when a registry answers with it. -/
theorem marked_version_added :
    ¬ ∀ (instances : RegistryInstances)
      (network : Http.Request → Unit → Option Http.Response × Unit) (r : Reconciler)
      (s next : State) (report : CycleReport) (c : Coordinate),
      s.perform (Sample.connected instances network) r.runOnce () = (report, next, ()) →
      next.index.Lists c → ¬ s.index.Lists c → c.Accepted := by
  intro always
  obtain ⟨next, ran, index⟩ :=
    Sample.perform_bringing Sample.trace_marked rfl Sample.fits_marked (by decide) rfl
  have added : next.index.Lists Sample.marked.coordinate := by
    rw [index]
    decide
  have accepted := always _ _ _ _ next _ Sample.marked.coordinate ran added
    (Index.not_lists_empty _)
  revert accepted
  decide +kernel

end Proxy

end ModuleDepot
