import ModuleDepot.Proofs.ReconcileCourses
import ModuleDepot.Proofs.RootManifests
import ModuleDepot.Proofs.WrittenContainers

/-!
Which manifest is indexed with an archive from a module's own host. The archive is brought into the
layout, written, and read again for its manifest; what is found is the manifest at the root, and no
other, or none, and then one is made up that only names the source.
-/

namespace ModuleDepot

open Archive (manifestName manifest_of_read)
open Archive.Container (FitsContainer Reread Sealed Sound sound_of_stored)

namespace Archive

variable {c : Coordinate} {raw laid back : Archive} {e f g : Entry}

/-- An archive in the layout has at most one manifest, at its root, and has it exactly if the raw
archive has one below its top directory. The search for a manifest gives its text. -/
structure RootManifestOnly (c : Coordinate) (raw laid : Archive) : Prop where
  once : laid.manifests.length ≤ 1
  root : ∀ e ∈ laid.manifests, e.name = c.archiveRoot ++ "go.mod"
  present : laid.manifests ≠ [] ↔ ∃ f ∈ raw.entries, f.IsRootManifest
  text : ∀ e ∈ laid.manifests, laid.manifest = e.text.map some
  absent : laid.manifests = [] → laid.manifest = .ok none

theorem rootManifestOnly_of_singleton (member : f ∈ raw.entries) (root : f.IsRootManifest)
    (one : laid.manifests = [g]) (called : g.name = c.archiveRoot ++ "go.mod") :
    RootManifestOnly c raw laid where
  once := by simp [one]
  root e among := by
    rw [one] at among
    rw [List.mem_singleton.mp among, called]
  present := iff_of_true (by simp [one]) ⟨f, member, root⟩
  text e among := by
    rw [one] at among
    rw [List.mem_singleton.mp among]
    exact manifest_of_manifests_singleton one
  absent empty := by
    rw [one] at empty
    cases empty

theorem rootManifestOnly_of_nil (no_root : ¬ ∃ f ∈ raw.entries, f.IsRootManifest)
    (empty : laid.manifests = []) : RootManifestOnly c raw laid where
  once := by simp [empty]
  root e among := by
    rw [empty] at among
    cases among
  present := iff_of_false (by simp [empty]) no_root
  text e among := by
    rw [empty] at among
    cases among
  absent := manifest_of_manifests_nil

theorem name_placed_of_root (root : f.IsRootManifest) :
    (placed c f).name = c.archiveRoot ++ "go.mod" := by
  rw [← String.toList_inj, toList_placed, String.toList_append,
    (isRootManifest_iff (slash_of_isRootManifest root)).mp root]
  rfl

theorem manifests_reread (same : List.Forall₂ Reread laid.entries back.entries) :
    List.Forall₂ Reread laid.manifests back.manifests := by
  have kept : ∀ {one other : List Entry}, List.Forall₂ Reread one other →
      List.Forall₂ Reread (one.filter Entry.isManifest) (other.filter Entry.isManifest) := by
    intro one other same
    induction same with
    | nil => exact List.Forall₂.nil
    | @cons e f rest more own _ ih =>
      have alike : f.isManifest = e.isManifest := by
        rw [Entry.isManifest, Entry.isDirectory, own.name]
        rfl
      by_cases manifest : e.isManifest = true
      · rw [List.filter_cons_of_pos manifest, List.filter_cons_of_pos (alike.trans manifest)]
        exact .cons own ih
      · rw [List.filter_cons_of_neg manifest, List.filter_cons_of_neg (alike ▸ manifest)]
        exact ih
  exact kept same

theorem text_reread (same : Reread e f) (whole : e.content.data.size = e.content.packedSize)
    (plain : e.content.encrypted = false) : f.text = e.text := by
  -- Unpacking does not ask how long the text is said to be.
  have unpacked : f.content.unpack = e.content.unpack := by
    rw [same.content whole, Packed.unpack, Packed.unpack, plain]
    rfl
  rw [Entry.text, unpacked, Entry.text]

open Classical in
theorem sound_of_normalise (sound : Sound raw) (normalised : normalise c raw = .ok laid) :
    Sound laid := by
  obtain ⟨top, -, made⟩ := of_normalise normalised
  refine ⟨?_, ?_, names_nodup_of_normalise sound.distinct normalised⟩
  · rw [made, List.length_map]
    exact Nat.lt_of_le_of_lt (List.length_filter_le _ _) sound.few
  · intro e among
    rw [made] at among
    obtain ⟨f, kept, rfl⟩ := List.mem_map.mp among
    exact sound.numbered f (List.mem_filter.mp kept).1

end Archive

variable {c : Coordinate} {raw blob : ByteArray}

/-- Raw bytes, the archive that is read from them, the one in the layout, and its bytes. -/
structure LaidOut (c : Coordinate) (raw : ByteArray) (found laid : Archive) (blob : ByteArray) :
    Prop where
  read : Archive.Container.read raw = .ok found
  normalised : Archive.normalise c found = .ok laid
  written : blob = Archive.Container.write laid

theorem laidOut_of_normalise (normalised : Blob.normalise c raw = .ok blob) :
    ∃ found laid, LaidOut c raw found laid blob := by
  obtain ⟨found, read, normalised⟩ := bind_eq_ok normalised
  obtain ⟨laid, made, written⟩ := bind_eq_ok normalised
  cases written
  exact ⟨found, laid, read, made, rfl⟩

theorem LaidOut.normalise {found laid : Archive} (out : LaidOut c raw found laid blob) :
    Blob.normalise c raw = .ok blob := by
  rw [out.written]
  simp only [Blob.normalise, out.read, out.normalised, bind, Except.bind]
  rfl

/-- What reading the bytes in the layout again gives. -/
structure ReadAgain (c : Coordinate) (found laid : Archive) (blob : ByteArray) (back : Archive) :
    Prop where
  read : Archive.Container.read blob = .ok back
  manifest : Blob.manifest blob = back.manifest
  names : back.names = laid.names
  root : Archive.RootManifestOnly c found back
  kept : ∀ f ∈ found.entries, f.IsRootManifest → f.content.encrypted = false →
    f.content.data.size = f.content.packedSize → Blob.manifest blob = f.text.map some

variable {found laid : Archive}

theorem LaidOut.unique {found' laid' : Archive} {blob' : ByteArray}
    (out : LaidOut c raw found laid blob) (other : LaidOut c raw found' laid' blob') :
    found = found' ∧ laid = laid' ∧ blob = blob' := by
  obtain rfl := Except.ok.inj (out.read.symm.trans other.read)
  obtain rfl := Except.ok.inj (out.normalised.symm.trans other.normalised)
  exact ⟨rfl, rfl, out.written.trans other.written.symm⟩

theorem LaidOut.rootManifestOnly (out : LaidOut c raw found laid blob) :
    Archive.RootManifestOnly c found laid := by
  obtain ⟨one, empty⟩ := Archive.manifests_of_normalise
    (Archive.Container.sound_of_read out.read).distinct out.normalised
  by_cases rooted : ∃ f ∈ found.entries, f.IsRootManifest
  · obtain ⟨f, member, root⟩ := rooted
    exact Archive.rootManifestOnly_of_singleton member root (one f member root)
      (Archive.name_placed_of_root root)
  · exact Archive.rootManifestOnly_of_nil rooted (empty rooted)

theorem LaidOut.readAgain (out : LaidOut c raw found laid blob) (fits : FitsContainer laid)
    (unsealed : ∀ e ∈ laid.entries, ¬ Sealed e) : ∃ back, ReadAgain c found laid blob back := by
  have sound := Archive.Container.sound_of_read out.read
  obtain ⟨one, empty⟩ := Archive.manifests_of_normalise sound.distinct out.normalised
  obtain ⟨back, read, same⟩ := Archive.Container.read_write
    (Archive.sound_of_normalise sound out.normalised) fits unsealed
  rw [← out.written] at read
  have manifests := Archive.manifests_reread same
  have again : ∀ f ∈ found.entries, f.IsRootManifest →
      ∃ g, Reread (Archive.placed c f) g ∧ back.manifests = [g] := by
    intro f member root
    rw [one f member root] at manifests
    obtain ⟨g, rest, own, none, shape⟩ := List.forall₂_cons_left_iff.mp manifests
    rw [List.forall₂_nil_left_iff.mp none] at shape
    exact ⟨g, own, shape⟩
  refine ⟨back, read, manifest_of_read read, Archive.Container.names_eq_of_reread same, ?_, ?_⟩
  · by_cases rooted : ∃ f ∈ found.entries, f.IsRootManifest
    · obtain ⟨f, member, root⟩ := rooted
      obtain ⟨g, own, single⟩ := again f member root
      exact Archive.rootManifestOnly_of_singleton member root single
        (own.name.trans (Archive.name_placed_of_root root))
    · rw [empty rooted] at manifests
      exact Archive.rootManifestOnly_of_nil rooted (List.forall₂_nil_left_iff.mp manifests)
  · intro f member root plain whole
    obtain ⟨g, own, single⟩ := again f member root
    rw [manifest_of_read read, Archive.manifest_of_manifests_singleton single,
      Archive.text_reread own whole plain]
    rfl

theorem LaidOut.unread_of_sealed (out : LaidOut c raw found laid blob) (fits : FitsContainer laid)
    (among : ∃ e ∈ laid.entries, Sealed e) {p : Nat} (late : blob.size ≤ p + 22) :
    Archive.Container.archiveAt? blob p = none := by
  have sound := Archive.sound_of_normalise (Archive.Container.sound_of_read out.read) out.normalised
  rw [out.written] at late ⊢
  exact Archive.Container.archiveAt?_write_of_sealed sound fits among late

/-! ## Bringing a module in -/

namespace Proxy

open Procedure

variable {r : Reconciler} {s : SerialCoordinate} {events : List (Event Call Answer)}
  {result : Except ReconcileError Outcome}

/-- An answer of the network had the bytes for its content. -/
def Received (events : List (Event Call Answer)) (raw : ByteArray) : Prop :=
  ∃ q response, (⟨.exchange q, some response⟩ : Event Call Answer) ∈ events ∧ response.body = raw

theorem answered_of_send {method url body : String} {headers : List (String × String)}
    {sent : List (Event Http.Request fun _ => Option Http.Response)} {response : Http.Response}
    (trace : Trace (Http.send method url headers body) sent (.ok response)) :
    ∃ q, sent = [⟨q, some response⟩] := by
  unfold Http.send Http.sendTo at trace
  split at trace
  · cases trace
  · split at trace
    · cases trace
    · dsimp only at trace
      split at trace
      · cases trace
      · split at trace
        · cases trace
        · obtain ⟨answer, rest, following, rfl⟩ := trace_call_bind trace
          cases answer with
          | none => cases following
          | some other =>
              cases following
              exact ⟨_, rfl⟩

theorem answered_of_fetch {request : FetchRequest} {transports : List String}
    {sent : List (Event Http.Request fun _ => Option Http.Response)}
    (trace : Trace (request.fetchOver transports) sent (.ok raw)) :
    ∃ q response, sent = [⟨q, some response⟩] ∧ response.body = raw := by
  unfold FetchRequest.fetchOver FetchRequest.fetch at trace
  split at trace
  · split at trace
    · cases trace
    · obtain ⟨first, answer, second, own, following, rfl⟩ := trace_bind trace
      cases answer with
      | error e => cases following
      | ok response =>
          dsimp only at following
          split at following
          · cases following
            obtain ⟨q, rfl⟩ := answered_of_send own
            exact ⟨q, response, rfl, rfl⟩
          · cases following
  · cases trace

/-- What is fetched from a module's own host is what was received, brought into the layout. -/
theorem normalised_of_fetchHome (trace : Trace (r.fetchHome c) events (.ok blob)) :
    ∃ raw, Received events raw ∧ Blob.normalise c raw = .ok blob := by
  obtain ⟨first, resolved, rest, -, following, rfl⟩ := trace_bind trace
  cases resolved with
  | error e => cases following
  | ok request =>
      obtain ⟨fetch, fetched, second, own, following, rfl⟩ := trace_bind following
      cases fetched with
      | error e => cases following
      | ok raw =>
          dsimp only at following
          generalize made : (Blob.normalise c raw).mapError
            (fun e => ReconcileError.domain (.archive e)) = outcome at following
          cases following
          obtain ⟨sent, onSent, rfl⟩ := trace_online own
          obtain ⟨q, response, rfl, same⟩ := answered_of_fetch onSent
          refine ⟨raw, ⟨q, response, by simp, same⟩, ?_⟩
          · cases normalised : Blob.normalise c raw with
            | error e => rw [normalised] at made; cases made
            | ok other => rw [normalised] at made; cases made; rfl

theorem normalised_of_download (alone : r.openProxyFor c = none) {source : ArchiveSource}
    (trace : Trace (r.download c) events (.ok (blob, source))) :
    ∃ raw, Received events raw ∧ Blob.normalise c raw = .ok blob := by
  rw [Reconciler.download, alone] at trace
  obtain ⟨first, fetched, second, own, following, rfl⟩ := trace_bind trace
  cases fetched with
  | error e => cases following
  | ok data =>
      cases following
      rw [List.append_nil]
      exact normalised_of_fetchHome own

/-- A row that is put names the manifest of what was downloaded. -/
theorem Course.manifest_of_putRow (course : Course r s events result) {row : Addition}
    {answer : Answer (.putRow row)}
    (member : (⟨.putRow row, answer⟩ : Event Call Answer) ∈ events) :
    ∃ fetch blob source, fetch.Sublist events ∧
      Trace (r.download s.coordinate) fetch (.ok (blob, source)) ∧
      Reconciler.manifestOf s.coordinate blob = .ok row.manifest := by
  have exchanged : ∀ {fetched : Except ReconcileError (ByteArray × ArchiveSource)}
      {fetch : List (Event Call Answer)}, Trace (r.download s.coordinate) fetch fetched →
      (⟨.putRow row, answer⟩ : Event Call Answer) ∉ fetch := fun trace among =>
    nomatch exchanges_of_download trace _ among
  cases course with
  | unsearched | known | unchanged | renumbered => simp at member
  | unfetched trace => exact absurd (by simpa using member) (exchanged trace)
  | @fetched fetch taken blob source _ trace intake =>
      have kept : fetch.Sublist (⟨.findSerial s.coordinate, .ok none⟩ :: (fetch ++ taken)) :=
        .cons _ (List.sublist_append_left fetch taken)
      have among : (⟨.putRow row, answer⟩ : Event Call Answer) ∈ taken := by
        have after := (List.mem_cons.mp member).resolve_left (by simp)
        rcases List.mem_append.mp after with own | later
        · exact absurd own (exchanged trace)
        · exact later
      refine ⟨fetch, blob, source, kept, trace, ?_⟩
      have named : ∀ {text : String}, row = ⟨s.coordinate, s.serial, text⟩ → row.manifest = text :=
        fun same => by rw [same]
      cases intake with
      | unreadable => cases among
      | unstored => simp at among
      | unlisted e manifest =>
          simp only [List.mem_cons, List.not_mem_nil, or_false] at among
          rcases among with same | same
          · exact nomatch congrArg Sigma.fst same
          · rw [named (Call.putRow.inj (congrArg Sigma.fst same))]
            exact manifest
      | listed manifest =>
          simp only [List.mem_cons, List.not_mem_nil, or_false] at among
          rcases among with same | same | same
          · exact nomatch congrArg Sigma.fst same
          · rw [named (Call.putRow.inj (congrArg Sigma.fst same))]
            exact manifest
          · exact nomatch congrArg Sigma.fst same

/-- The text that is indexed is the one of the manifest at the root, or it is made up. -/
theorem indexed_of_readAgain {found laid back : Archive} {text : String}
    (again : ReadAgain c found laid blob back) (named : Reconciler.manifestOf c blob = .ok text) :
    (∃ e ∈ back.manifests, e.text = .ok text) ∨
      back.manifests = [] ∧ text = Reconciler.impliedManifest c := by
  rw [Reconciler.manifestOf, again.manifest] at named
  by_cases empty : back.manifests = []
  · rw [again.root.absent empty] at named
    cases named
    exact .inr ⟨empty, rfl⟩
  · obtain ⟨e, among⟩ := List.exists_mem_of_ne_nil _ empty
    rw [again.root.text e among] at named
    refine .inl ⟨e, among, ?_⟩
    cases spelled : e.text with
    | error fault =>
        rw [spelled] at named
        cases named
    | ok other =>
        rw [spelled] at named
        cases named
        rfl

/-- Bytes that are brought into the layout have at most one manifest, which is the one at the root,
and reading them gives its text. So this text, or a made up one if there is none, is what is indexed
with an archive that a module's own host served. A sealed entry that is kept spoils the reading: the
directory of the whole is unsound then. Containers are those without the larger words of ZIP64: more
than 65535 entries or 4 GiB are neither read nor written. -/
theorem root_manifest_indexed (r : Reconciler) (s : SerialCoordinate) :
    (∀ raw blob, Blob.normalise s.coordinate raw = .ok blob →
      ∃ found laid, LaidOut s.coordinate raw found laid blob ∧
        Archive.RootManifestOnly s.coordinate found laid ∧
        (FitsContainer laid → (∀ e ∈ laid.entries, ¬ Sealed e) →
          ∃ back, ReadAgain s.coordinate found laid blob back) ∧
        (FitsContainer laid → (∃ e ∈ laid.entries, Sealed e) →
          ∀ p, blob.size ≤ p + 22 → Archive.Container.archiveAt? blob p = none)) ∧
    ∀ (events : List (Event Call Answer)) (result : Except ReconcileError Outcome),
      r.openProxyFor s.coordinate = none → Trace (r.reconcile s) events result →
      ∀ (row : Addition) (answer : Answer (.putRow row)), ⟨.putRow row, answer⟩ ∈ events →
        ∃ raw found laid blob, Received events raw ∧ LaidOut s.coordinate raw found laid blob ∧
          (FitsContainer laid → (∀ e ∈ laid.entries, ¬ Sealed e) →
            ∃ back, ReadAgain s.coordinate found laid blob back ∧
              ((∃ e ∈ back.manifests, e.text = .ok row.manifest) ∨
                back.manifests = [] ∧
                  row.manifest = Reconciler.impliedManifest s.coordinate)) := by
  constructor
  · intro raw blob normalised
    obtain ⟨found, laid, out⟩ := laidOut_of_normalise normalised
    exact ⟨found, laid, out, out.rootManifestOnly, out.readAgain,
      fun fits among p late => out.unread_of_sealed fits among late⟩
  · intro events result alone trace row answer member
    obtain ⟨fetch, blob, source, within, download, named⟩ :=
      (course_of_trace trace).manifest_of_putRow member
    obtain ⟨raw, ⟨q, response, exchanged, body⟩, normalised⟩ :=
      normalised_of_download alone download
    obtain ⟨found, laid, out⟩ := laidOut_of_normalise normalised
    refine ⟨raw, found, laid, blob, ⟨q, response, within.subset exchanged, body⟩, out,
      fun fits unsealed => ?_⟩
    obtain ⟨back, again⟩ := out.readAgain fits unsealed
    exact ⟨back, again, indexed_of_readAgain again named⟩

/-! ## A nested module that is left out -/

namespace Sample

def home : Reconciler := ⟨[.path (some [("h.io", "m.zip")])], none⟩

def member : SerialCoordinate := ⟨⟨"h.io/m", "v1"⟩, 1⟩

def file (name text : String) : Archive.Entry := ⟨name, .ofBytes text.toUTF8⟩

/-- What the host serves. A directory below the top one is a module of its own. -/
def tree : Archive := ⟨[file "m-1/sub/go.mod" "module sub\n", file "m-1/go.mod" "module m\n"]⟩

def pruned : Archive := ⟨[file "h.io/m@v1/go.mod" "module m\n"]⟩

def download : Http.Request :=
  ⟨"GET", ⟨"https".toList, [], none, some (.domain "h.io".toList), none,
    .segments ["m.zip".toList], none, none⟩, [], ""⟩

def row : Addition := ⟨member.coordinate, 1, "module m\n"⟩

def listing : List (Event Call Answer) :=
  [⟨.findSerial member.coordinate, .ok none⟩,
    ⟨.exchange download, some ⟨200, Archive.Container.write tree⟩⟩,
    ⟨.putArchive member.coordinate (Archive.Container.write pruned), .ok ()⟩,
    ⟨.putRow row, .ok ()⟩, ⟨.count (.downloads .home), ()⟩]

theorem fits_tree : FitsContainer tree where
  short := by decide
  near := by decide

theorem read_tree : Archive.Container.read (Archive.Container.write tree) = .ok tree :=
  Archive.Container.read_write_of_plain (sound_of_stored (by decide) (by decide) (by decide))
    fits_tree (by decide) (by decide)

theorem laidOut_tree : LaidOut member.coordinate (Archive.Container.write tree) tree pruned
    (Archive.Container.write pruned) where
  read := read_tree
  normalised := rfl
  written := rfl

theorem fits_pruned : FitsContainer pruned where
  short := by decide
  near := by decide

theorem unsealed_pruned : ∀ e ∈ pruned.entries, ¬ Sealed e := by decide

theorem manifest_pruned : Reconciler.manifestOf member.coordinate (Archive.Container.write pruned) =
    .ok row.manifest := by
  have root : (file "m-1/go.mod" "module m\n").IsRootManifest := ⟨"m-1", by decide, rfl⟩
  have text : (file "m-1/go.mod" "module m\n").text = .ok row.manifest := Archive.text_ofBytes _ _
  obtain ⟨back, again⟩ := laidOut_tree.readAgain fits_pruned unsealed_pruned
  rw [Reconciler.manifestOf, again.kept _ (.tail _ (.head _)) root rfl rfl, text]
  rfl

/-- The request that the steps shape. -/
def shaped : FetchRequest := ⟨"https", "h.io", ["m"], "v1", "m.zip", []⟩

theorem trace_resolve : Trace (resolve home.transforms member.coordinate) [] (.ok shaped) := by
  have filled : (FetchRequest.ofCoordinate member.coordinate).shape? (some [("h.io", "m.zip")]) =
      some shaped := by decide
  simp only [resolve, home, FetchRequest.follow, Transform.apply, filled]
  exact Trace.done _

theorem trace_fetched : Trace (shaped.fetchOver clientTransports)
    [⟨download, some ⟨200, Archive.Container.write tree⟩⟩]
    (.ok (Archive.Container.write tree)) := by
  have address : Url.read shaped.url = .ok download.url := ok_of_toOption (by decide +kernel)
  rw [FetchRequest.fetchOver, if_pos (by decide), FetchRequest.fetch, if_neg (by decide), Http.send,
    address]
  exact Trace.ask (Trace.done _)

theorem trace_download : Trace (home.download member.coordinate)
    [⟨.exchange download, some ⟨200, Archive.Container.write tree⟩⟩]
    (.ok (Archive.Container.write pruned, .home)) := by
  have brought : Trace (home.fetchHome member.coordinate)
      [⟨.exchange download, some ⟨200, Archive.Container.write tree⟩⟩]
      (.ok (Archive.Container.write pruned)) := by
    refine Trace.bind (trace_online_of_trace trace_resolve) ?_
    refine Trace.bind (trace_online_of_trace trace_fetched) ?_
    dsimp only
    rw [laidOut_tree.normalise]
    exact Trace.done _
  rw [Reconciler.download, show home.openProxyFor member.coordinate = none from ite_self none]
  exact Trace.bind brought (Trace.done _)

theorem trace_listing : Trace (home.reconcile member) listing (.ok (.downloaded .home)) := by
  refine Trace.ask (Trace.bind trace_download ?_)
  dsimp only
  rw [Reconciler.takeIn, manifest_pruned]
  exact Trace.ask (Trace.ask (Trace.ask (Trace.done _)))

theorem received_listing {raw : ByteArray} (received : Received listing raw) :
    raw = Archive.Container.write tree := by
  obtain ⟨q, response, exchanged, rfl⟩ := received
  simp only [listing, List.mem_cons, List.not_mem_nil, or_false] at exchanged
  rcases exchanged with same | same | same | same | same
  · exact nomatch congrArg Sigma.fst same
  · cases same
    rfl
  · exact nomatch congrArg Sigma.fst same
  · exact nomatch congrArg Sigma.fst same
  · exact nomatch congrArg Sigma.fst same

end Sample

/-- The nested module is left out, and the row has the manifest at the root. -/
theorem root_manifest_indexed_pruned :
    Blob.normalise Sample.member.coordinate (Archive.Container.write Sample.tree) =
        .ok (Archive.Container.write Sample.pruned) ∧
      Archive.RootManifestOnly Sample.member.coordinate Sample.tree Sample.pruned ∧
      (FitsContainer Sample.pruned ∧ ∀ e ∈ Sample.pruned.entries, ¬ Sealed e) ∧
      Sample.home.openProxyFor Sample.member.coordinate = none ∧
      Trace (Sample.home.reconcile Sample.member) Sample.listing (.ok (.downloaded .home)) ∧
      ⟨.putRow Sample.row, .ok ()⟩ ∈ Sample.listing ∧
      ∃ back, ReadAgain Sample.member.coordinate Sample.tree Sample.pruned
          (Archive.Container.write Sample.pruned) back ∧
        ((∃ e ∈ back.manifests, e.text = .ok Sample.row.manifest) ∨
          back.manifests = [] ∧
            Sample.row.manifest = Reconciler.impliedManifest Sample.member.coordinate) := by
  have listed : (⟨.putRow Sample.row, .ok ()⟩ : Event Call Answer) ∈ Sample.listing := by
    simp [Sample.listing]
  have alone : Sample.home.openProxyFor Sample.member.coordinate = none := ite_self none
  obtain ⟨each, rows⟩ := root_manifest_indexed Sample.home Sample.member
  obtain ⟨found, laid, out, only, -⟩ := each _ _ Sample.laidOut_tree.normalise
  obtain ⟨rfl, rfl, -⟩ := out.unique Sample.laidOut_tree
  refine ⟨Sample.laidOut_tree.normalise, only, ⟨Sample.fits_pruned, Sample.unsealed_pruned⟩, alone,
    Sample.trace_listing, listed, ?_⟩
  obtain ⟨raw, found, laid, blob, received, out, again⟩ :=
    rows _ _ alone Sample.trace_listing _ _ listed
  obtain rfl := Sample.received_listing received
  obtain ⟨rfl, rfl, rfl⟩ := out.unique Sample.laidOut_tree
  exact again Sample.fits_pruned Sample.unsealed_pruned

/-! ## A sealed entry before a packed archive -/

namespace Sample

open Archive.Container

def nested : Archive := ⟨[file "x/go.mod" "module n\n"]⟩

/-- An entry whose field for encryption names encryption again as the method below it. -/
def sealedEntry : Archive.Entry := ⟨"b/s", ⟨.other sealedCode, false, 0, 0, 0, ByteArray.empty⟩⟩

def packedEntry : Archive.Entry := ⟨"b/a", ⟨.stored, false, 0xcf6c37cc, 123, 123, write nested⟩⟩

def wrapped : Archive := ⟨[sealedEntry, packedEntry]⟩

/-- The header of the sealed entry, with the field that explains it. -/
def sealedHeader : ByteArray :=
  Bytes.fields [(4, directoryMark), (2, 20), (2, 20), (2, 0), (2, sealedCode), (2, 0), (2, 0x21),
    (4, 0), (4, 0), (4, 0), (2, 3), (2, 11), (2, 0), (2, 0), (2, 0), (4, 0), (4, 0)] ++
  "b/s".toUTF8 ++
  Bytes.fields [(2, 0x9901), (2, 7), (2, 2), (2, 0x4541), (1, 3), (2, sealedCode)]

def wrapping : ByteArray :=
  writeEntry sealedEntry ++ writeEntry packedEntry ++
    (sealedHeader ++ writeHeader packedEntry 33) ++ Bytes.fields (endWords 2 109 189)

def unwrapped : Archive := ⟨wrapped.entries.map (Archive.placed member.coordinate)⟩

theorem sound_nested : Sound nested := sound_of_stored (by decide) (by decide) (by decide)

theorem fits_nested : FitsContainer nested where
  short := by decide
  near := by decide

theorem read_wrapping : read wrapping = .ok wrapped := by
  have listed : wrapping.data.toList = entryBytes sealedEntry ++ entryBytes packedEntry ++
      (sealedHeader.data.toList ++ headerBytes packedEntry 33) ++
      Bytes.fieldBytes (endWords 2 109 189) := by
    simp [wrapping, toList_writeEntry, toList_writeHeader, Bytes.toList_fields]
  have stands := Bytes.stands_of_listed listed
  have bodies : (entryBytes sealedEntry ++ entryBytes packedEntry).length = 189 := by decide +kernel
  have ahead : (entryBytes sealedEntry).length = 33 := by decide
  have own := stands.left.left.right
  have header := stands.left.right.right
  have ending := stands.right
  rw [ahead, Nat.zero_add] at own
  rw [bodies, Nat.zero_add, show sealedHeader.data.toList.length = 60 by decide] at header
  rw [List.length_append, bodies, List.length_append, length_headerBytes] at ending
  have directory : directoryAt? wrapping 298 = some ⟨0, 189, 2⟩ :=
    directoryAt?_of_stands ending rfl (by decide) (by decide)
      (fun _ => ⟨by decide, by decide +kernel, fun p above below => by omega⟩) (by decide)
  have sealed_read : entryAt? wrapping ⟨0, 189, 2⟩ 189 = some (sealedEntry, 249) := by
    decide +kernel
  have fits : FitsHeader packedEntry := ⟨by decide, ⟨0, by decide, rfl⟩⟩
  have plain : Plain packedEntry := by decide +kernel
  have packed_read : entryAt? wrapping ⟨0, 189, 2⟩ 249 = some (packedEntry, 298) := by
    have found : entryAt? wrapping ⟨0, 189, 2⟩ 249 = _ :=
      entryAt?_of_stands header own fits (by decide) (by decide +kernel)
    rw [if_neg (by decide), Nat.add_zero,
      (reread_entryIn own (by decide +kernel)).eq_of_plain plain, length_headerBytes] at found
    exact found
  have found : archiveAt? wrapping 298 = some wrapped :=
    archiveAt?_of_entries directory
      (entriesFrom?_cons sealed_read (entriesFrom?_cons packed_read rfl)) (by decide)
  have full : wrapping.size = 320 := by
    rw [Bytes.size_of_listed listed, List.length_append, List.length_append, bodies,
      List.length_append, length_headerBytes]
    rfl
  exact read_of_archiveAt? found (fun p after room => by omega) (by omega)

theorem laidOut_wrapping : LaidOut member.coordinate wrapping wrapped unwrapped
    (write unwrapped) where
  read := read_wrapping
  normalised := rfl
  written := rfl

/-- The directory at the end is unsound, and the one in the packed archive is the next. -/
theorem read_unwrapped : read (write unwrapped) = .ok nested := by
  have whole := Bytes.stands_of_listed (toList_write unwrapped)
  have inner : Bytes.Stands (write unwrapped) 82 (containerBytes nested) := by
    rw [← toList_write]
    have own : Bytes.Stands (write unwrapped) 41
        (entryBytes (Archive.placed member.coordinate packedEntry) ++ []) := whole.left.left.right
    exact stands_data own.left
  have no_header : ∀ b ∈ ((write unwrapped).data.toList.drop 50).take 82, b.toNat ≠ 2 := by
    decide +kernel
  have no_end : ∀ b ∈ ((write unwrapped).data.toList.drop 187).take 135, b.toNat ≠ 6 := by
    decide +kernel
  have bodies : (nested.entries.flatMap entryBytes).length = 47 := by decide
  have headers : (headersFrom 0 nested.entries).length = 54 := by decide
  have full : (write unwrapped).size = 341 := by decide +kernel
  have unsound : archiveAt? (write unwrapped) 319 = none :=
    laidOut_wrapping.unread_of_sealed ⟨by decide, by decide +kernel⟩
      ⟨Archive.placed member.coordinate sealedEntry, .head _, rfl⟩ (by omega)
  have found := archiveAt?_of_stands sound_nested fits_nested inner
    fun p above below mark => Bytes.byte?_ne_of_absent no_header (by omega) (by omega)
      (Bytes.byte?_of_word32? mark)
  have plain : ∀ e ∈ nested.entries, Plain e := by decide
  rw [if_neg (by decide), bodies, headers,
    eq_of_reread plain (reread_entriesIn inner.left.left fits_nested.near)] at found
  refine read_of_archiveAt? found (fun p after room => ?_) (by omega)
  rcases Nat.lt_or_eq_of_le (show p ≤ 319 by omega) with ahead | rfl
  · exact archiveAt?_of_unmarked (Bytes.byte?_ne_of_absent no_end (by omega) (by omega))
  · exact unsound

end Sample

/-- The field of a sealed entry is not written again, so that the directory in the layout is
unsound, and the one of an archive that is packed in another entry is found before it. Its manifest
is what is indexed, although there is none below the top directory. -/
theorem sealed_entry_uncovers_packed_manifest :
    Blob.normalise Sample.member.coordinate Sample.wrapping =
        .ok (Archive.Container.write Sample.unwrapped) ∧
      (Archive.Container.read Sample.wrapping = .ok Sample.wrapped ∧
        ¬ ∃ f ∈ Sample.wrapped.entries, f.IsRootManifest) ∧
      Blob.names (Archive.Container.write Sample.unwrapped) = .ok ["x/go.mod"] ∧
      Blob.manifest (Archive.Container.write Sample.unwrapped) = .ok (some "module n\n") ∧
      Reconciler.manifestOf Sample.member.coordinate (Archive.Container.write Sample.unwrapped) =
        .ok "module n\n" := by
  have manifest : Blob.manifest (Archive.Container.write Sample.unwrapped) =
      .ok (some "module n\n") := by
    have one : Sample.nested.manifests = [Sample.file "x/go.mod" "module n\n"] := rfl
    rw [manifest_of_read Sample.read_unwrapped, Archive.manifest_of_manifests_singleton one,
      Sample.file, Archive.text_ofBytes]
    rfl
  have no_root : ¬ ∃ f ∈ Sample.wrapped.entries, f.IsRootManifest := by
    rintro ⟨f, among, root⟩
    have inner := (Archive.isRootManifest_iff (Archive.slash_of_isRootManifest root)).mp root
    have others : ∀ e ∈ Sample.wrapped.entries,
        Archive.innerPath e.name.toList ≠ Archive.manifestName := by decide
    exact others f among inner
  refine ⟨Sample.laidOut_wrapping.normalise, ⟨Sample.read_wrapping, no_root⟩, ?_, manifest, ?_⟩
  · rw [Blob.names, Sample.read_unwrapped]
    rfl
  · rw [Reconciler.manifestOf, manifest]
    rfl

end Proxy

end ModuleDepot
