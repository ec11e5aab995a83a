import ModuleDepot.Proofs.CaseFolding
import ModuleDepot.Proofs.IndexRows
import ModuleDepot.Proofs.RemovedArchives
import ModuleDepot.Proxy.Router
import ModuleDepot.Proxy.State

/-!
Removing a module over the protocol. The path of a version is read as the version itself, unless
the version is spelled like the list of versions or like a document of another version.
-/

namespace ModuleDepot

namespace EscapedPath

variable {front tail text folded : List Char} {c : Char}

/-- Letters that the escape leaves as they are, from one on that no mark can stand before. -/
def Plain (tail : List Char) : Prop :=
  (∀ c ∈ tail, c ≠ '!' ∧ c.isUpper = false) ∧ ∀ c ∈ tail.head?, c.isLower = false

theorem restoreCase_cons (other : c ≠ '!') (small : c.isUpper = false) (rest : List Char) :
    restoreCase (c :: rest) = (restoreCase rest).map (c :: ·) := by
  simp [restoreCase, other, small]

theorem restoreCase_plain (plain : ∀ c ∈ text, c ≠ '!' ∧ c.isUpper = false) :
    restoreCase text = .ok text := by
  induction text with
  | nil => rfl
  | cons c rest ih =>
    obtain ⟨⟨other, small⟩, later⟩ := List.forall_mem_cons.mp plain
    rw [restoreCase_cons other small, ih later]
    rfl

theorem restoreCase_append (plain : Plain tail) (some_tail : tail ≠ []) :
    restoreCase (front ++ tail) = (restoreCase front).map (· ++ tail) := by
  fun_induction restoreCase front with
  | case1 => simpa [Except.map] using restoreCase_plain plain.1
  | case2 next rest lower ih =>
    simp only [List.cons_append, restoreCase, lower, if_true, ih]
    cases restoreCase rest <;> simp [Except.map]
  | case3 next rest other => simp [restoreCase, other, Except.map]
  | case4 rest alone =>
    cases rest with
    | nil =>
      cases tail with
      | nil => exact absurd rfl some_tail
      | cons c tail =>
        have other : c.isLower = false := plain.2 c rfl
        simp [restoreCase, other, Except.map]
    | cons next rest => exact absurd rfl (alone next rest rfl)
  | case5 c rest _ other upper => simp [restoreCase, other, upper, Except.map]
  | case6 c rest _ other small ih =>
    rw [List.cons_append, restoreCase_cons other (by simpa using small), ih]
    cases restoreCase rest <;> simp [Except.map]

theorem suffix_of_escape (plain : Plain tail) (some_tail : tail ≠ [])
    (escaped : foldCase? text = some folded) : tail <:+ folded ↔ tail <:+ text := by
  have read := restoreCase_of_foldCase _ _ escaped
  constructor
  · rintro ⟨front, rfl⟩
    rw [restoreCase_append plain some_tail] at read
    obtain ⟨before, -, rfl⟩ := map_eq_ok_iff.mp read
    exact List.suffix_append before tail
  · rintro ⟨front, rfl⟩
    have unmarked : '!' ∉ front := fun marked =>
      foldCase_succeeds_iff.mp ⟨folded, escaped⟩ (List.mem_append_left tail marked)
    obtain ⟨before, spelled⟩ := foldCase_succeeds_iff.mpr unmarked
    have whole : restoreCase (before ++ tail) = .ok (front ++ tail) := by
      rw [restoreCase_append plain some_tail, restoreCase_of_foldCase _ _ spelled]
      rfl
    rw [foldCase_of_restoreCase whole] at escaped
    cases escaped
    exact List.suffix_append before tail

end EscapedPath

namespace ModulePath

open EscapedPath (escape)

/-- Versions whose paths name something else. -/
def Reserved (version : String) : Prop :=
  version = "list" ∨ ∃ ending ∈ [".info", ".mod", ".zip"], ending.toList <:+ version.toList

instance (version : String) : Decidable (Reserved version) := by
  unfold Reserved
  infer_instance

theorem plain_endings : ∀ document ∈ endings, EscapedPath.Plain document.1 ∧ document.1 ≠ [] := by
  simp [endings, EscapedPath.Plain]

/-- The paths of what a version cannot be removed for are its own spelling. -/
theorem reserved_iff {version escaped : String} (written : escape version = .ok escaped) :
    Reserved version ↔ escaped = "list" ∨ ∃ document ∈ endings, document.1 <:+ escaped.toList := by
  have folded := (EscapedPath.escape_eq_ok_iff _ _).mp written
  have listed : escape "list" = .ok "list" := rfl
  have named : version = "list" ↔ escaped = "list" := by
    constructor
    · rintro rfl
      exact Except.ok.inj (written.symm.trans listed)
    · rintro rfl
      exact EscapedPath.escape_injective _ _ _ written listed
  have ended : ∀ document ∈ endings,
      (document.1 <:+ escaped.toList ↔ document.1 <:+ version.toList) := by
    intro document among
    obtain ⟨plain, some_ending⟩ := plain_endings document among
    exact EscapedPath.suffix_of_escape plain some_ending folded
  have spelled : (∃ document ∈ endings, document.1 <:+ version.toList) ↔
      ∃ ending ∈ [".info", ".mod", ".zip"], ending.toList <:+ version.toList := by
    simp [endings]
  rw [Reserved, named, ← spelled]
  exact or_congr_right (exists_congr fun document => and_congr_right fun among =>
    (ended document among).symm)

variable {c : Coordinate} {source version : String} {escaped : List Char} {e : Fault}

theorem coordinate_error (failed : coordinate source escaped = .error e) :
    (∃ fault, e = .escape fault) ∨ ∃ fault, e = .coordinate fault := by
  rw [coordinate, unescaped] at failed
  cases read : EscapedPath.unescape (String.ofList escaped) with
  | error fault =>
    rw [read] at failed
    cases failed
    exact .inl ⟨fault, rfl⟩
  | ok version =>
    simp only [read, mapError_ok, bind, Except.bind] at failed
    cases made : Coordinate.make source version with
    | ok d => rw [made] at failed; cases failed
    | error fault =>
      rw [made] at failed
      cases failed
      exact .inr ⟨fault, rfl⟩

section Spelled

variable (accepted : c.Accepted) (source_written : escape c.source = .ok source)
  (version_written : escape c.version = .ok version)

include accepted source_written version_written

/-- The path of an accepted version is read as what the text of the version names. -/
theorem parse_of_spelled :
    parse ("/" ++ source ++ "/@v/" ++ version) = (below c.source version.toList).map some := by
  obtain ⟨some_source, some_version, begins⟩ := accepted.filled
  have unmarked := unmarked_of_escape version_written accepted.unmarked.2
  have written : Written ("/" ++ source ++ "/@v/" ++ version) c.source version :=
    ⟨1, source, source_written, rfl⟩
  obtain ⟨escaped, some_escaped, folded, cut⟩ := cut_of_written some_source begins unmarked written
  have some_rest : version.toList ≠ [] := by
    intro empty
    have kept := EscapedPath.head?_foldCase ((EscapedPath.escape_eq_ok_iff _ _).mp version_written)
    exact some_version (String.toList_inj.mp (kept.2.mp empty))
  have filled : (escaped.isEmpty || version.toList.isEmpty) = false := by
    simp [some_escaped, some_rest]
  rw [parse, cut]
  simp only [filled, unescaped_eq_ok_iff.mpr folded, bind, Except.bind]
  cases below c.source version.toList <;> rfl

theorem parse_eq_version (free : ¬ Reserved c.version) :
    parse ("/" ++ source ++ "/@v/" ++ version) = .ok (some (.version c)) := by
  rw [reserved_iff version_written, not_or] at free
  obtain ⟨unlisted, plain⟩ := free
  refine parse_eq_version_iff.mpr ⟨accepted, version, version_written,
    ⟨1, source, source_written, rfl⟩, unlisted, ?_⟩
  intro document among ended
  exact plain ⟨document, among, ended⟩

/-- A reserved version is read as something else, or its path is refused. -/
theorem parse_of_reserved (reserved : Reserved c.version) :
    (∃ found, parse ("/" ++ source ++ "/@v/" ++ version) = .ok (some found) ∧
        ∀ d, found ≠ .version d) ∨
      ∃ e, parse ("/" ++ source ++ "/@v/" ++ version) = .error e ∧
        ((∃ fault, e = .escape fault) ∨ ∃ fault, e = .coordinate fault) := by
  rw [parse_of_spelled accepted source_written version_written]
  rcases (reserved_iff version_written).mp reserved with rfl | ⟨document, among, front, split⟩
  · exact .inl ⟨.list c.source, rfl, fun d same => nomatch same⟩
  · rw [← split, below_of_document among]
    cases made : coordinate c.source front with
    | error e => exact .inr ⟨e, rfl, coordinate_error made⟩
    | ok other =>
      exact .inl ⟨document.2 other, rfl, fun d same =>
        (documents_apart document among other).2.1 d same.symm⟩

end Spelled

end ModulePath

namespace Http.Incoming

theorem mem_bareTarget_of_mem_pathIn {target : List Char} {letter : Char} (other : letter ≠ '/')
    (among : letter ∈ pathIn target) : letter ∈ bareTarget target := by
  unfold pathIn at among
  split at among
  · simp [other] at among
  · next same =>
    rw [same]
    exact among
  · split at among
    · exact among
    · split at among
      · simp [other] at among
      · exact List.mem_of_mem_drop ((List.dropWhile_suffix _).subset among)

/-- A path that holds the sign of a query or of a fragment is no request's path. -/
theorem unmarked_path (r : Incoming) : '?' ∉ r.path.toList ∧ '#' ∉ r.path.toList := by
  have clean (letter : Char) (among : letter ∈ r.path.toList) (other : letter ≠ '/') :
      letter ≠ '?' ∧ letter ≠ '#' := by
    rw [path, String.toList_ofList] at among
    simpa using List.all_eq_true.mp List.all_takeWhile _
      (mem_bareTarget_of_mem_pathIn other among)
  exact ⟨fun among => (clean _ among (by decide)).1 rfl,
    fun among => (clean _ among (by decide)).2 rfl⟩

end Http.Incoming

namespace Proxy

open EscapedPath (escape)
open ModulePath (Reserved parse)
open Http (Reply)

/-- A path of the module protocol is served as one, unless it lies below the path of the problems:
the paths of the source `v1/problems`, and of those below it, are taken for problems. -/
theorem handle_eq_serveOther {showsCounts : Bool} {r : Http.Incoming} {found : ModulePath}
    (named : parse r.path = .ok (some found)) (apart : problemPath? r.path = none) :
    handle showsCounts r = serveOther r.method r.path := by
  have unnamed : ∀ path ∈ ["/v1/health", "/v1/summary", "/v1/problems", "/metrics"],
      (parse path).toOption = some none := by decide +kernel
  have none_of (path : String) (fixed : path ∈ ["/v1/health", "/v1/summary", "/v1/problems",
      "/metrics"]) : r.path ≠ path := by
    rintro rfl
    have same := unnamed _ fixed
    rw [named] at same
    cases same
  rw [handle]
  split
  · next same => exact absurd same (none_of _ (by simp))
  · next same => exact absurd same (none_of _ (by simp))
  · next same => exact absurd same (none_of _ (by simp))
  · rw [if_neg (by simp [none_of "/metrics" (by simp)]), apart]

variable {σ : Type} {outside : Outside σ} {s : State} {w : σ} {c : Coordinate} {path : String}

/-- The module loses its row, and its archive if that can be taken away. -/
theorem perform_delete_done (named : parse path = .ok (some (.version c)))
    (done : (s.store.deleteArchive c).1 = .ok ()) :
    s.perform outside (serveOther "DELETE" path) w =
      (.bare 204, { s with index := s.index.remove c, store := (s.store.deleteArchive c).2 },
        w) := by
  rw [serveOther, named]
  change (replyOf _ ((s.store.deleteArchive c).1.mapError .storage), _, w) = _
  rw [done]
  rfl

/-- A path that names something else is not deleted. -/
theorem perform_delete_other {found : ModulePath} (named : parse path = .ok (some found))
    (other : ∀ d, found ≠ .version d) :
    s.perform outside (serveOther "DELETE" path) w = (.bare 405, s, w) := by
  rw [serveOther, named]
  cases found with
  | version d => exact absurd rfl (other d)
  | _ => rfl

theorem perform_delete_unread {e : Fault} (failed : parse path = .error e) :
    s.perform outside (serveOther "DELETE" path) w = ((RequestError.domain e).reply, s, w) := by
  rw [serveOther, failed]
  rfl

/-- A reserved version is refused, and nothing changes. -/
theorem perform_delete_reserved {source version : String} (accepted : c.Accepted)
    (source_written : escape c.source = .ok source)
    (version_written : escape c.version = .ok version) (reserved : Reserved c.version) :
    ∃ reply, s.perform outside (serveOther "DELETE" ("/" ++ source ++ "/@v/" ++ version)) w =
        (reply, s, w) ∧ (reply = .bare 405 ∨ reply.status = 400) := by
  rcases ModulePath.parse_of_reserved accepted source_written version_written reserved with
    ⟨found, named, other⟩ | ⟨e, failed, kind⟩
  · exact ⟨_, perform_delete_other named other, .inl rfl⟩
  · refine ⟨_, perform_delete_unread failed, .inr ?_⟩
    rcases kind with ⟨fault, rfl⟩ | ⟨fault, rfl⟩ <;> rfl

/-- A module is removed: so it was answered, it is not listed any more, and its archive is
missing. -/
structure Removed (c : Coordinate) (reply : Reply) (next : State) : Prop where
  answered : reply = .bare 204
  unlisted : ¬ next.index.Lists c
  missing : next.store.getArchive c = .error (.notFound c.display)

/-- A module that is stored can be removed over the protocol unless its version is spelled like
another resource, or a link on the way to its archive leads out of the root and back. Whatever is
answered, the rows of all other modules stay as they are. The path is served here as one of the
module protocol: `handle_eq_serveOther` and `unmarked_path` tell which requests come so far, and
none does for the source `v1/problems`, for one below it, or for one with a `?` or a `#`. -/
theorem removed_unless_reserved (outside : Outside σ) (s : State) (w : σ) (c : Coordinate)
    (accepted : c.Accepted) (data : ByteArray) (stored : s.store.getArchive c = .ok data) :
    ∃ source version anchor reply next,
      escape c.source = .ok source ∧ escape c.version = .ok version ∧
      s.store.tree.locate true s.store.root = .ok anchor ∧
      s.perform outside (serveOther "DELETE" ("/" ++ source ++ "/@v/" ++ version)) w =
        (reply, next, w) ∧
      (Removed c reply next ↔ ¬ Reserved c.version ∧
        ¬ s.store.Roundabout anchor (source ++ "/@v/" ++ version ++ ".zip")) ∧
      (∀ d, d ≠ c → next.index.row? d = s.index.row? d) ∧
      (¬ Reserved c.version → reply = .bare 204 ∧ ¬ next.index.Lists c ∧
        ∀ data, next.store.getArchive c ≠ .ok data) ∧
      (Reserved c.version → (reply = .bare 405 ∨ reply.status = 400) ∧ next = s) := by
  obtain ⟨key, anchor, written, located⟩ := FileStore.located_of_getArchive stored
  obtain ⟨source, version, folded, folded', rfl⟩ :=
    (Coordinate.archiveKey_eq_ok_iff c key).mp (FileStore.archiveKey_iff.mp written)
  obtain ⟨done, unread, missing⟩ :=
    FileStore.deleteArchive_of_getArchive written stored located
  have unlisted := s.index.not_lists_remove c
  by_cases reserved : Reserved c.version
  · obtain ⟨reply, performed, refused⟩ :=
      perform_delete_reserved accepted folded folded' reserved
    refine ⟨source, version, anchor, reply, s, folded, folded', located, performed, ?_,
      fun d _ => rfl, fun free => absurd reserved free, fun _ => ⟨refused, rfl⟩⟩
    constructor
    · intro removed
      rw [removed.answered] at refused
      exact absurd refused (by decide)
    · intro both
      exact absurd reserved both.1
  · have named := ModulePath.parse_eq_version accepted folded folded' reserved
    refine ⟨source, version, anchor, _, _, folded, folded', located,
      perform_delete_done named done, ?_,
      fun d other => ?_, fun _ => ⟨rfl, unlisted, unread⟩, fun other => absurd other reserved⟩
    · constructor
      · intro removed
        exact ⟨reserved, missing.mp removed.missing⟩
      · intro both
        exact ⟨rfl, unlisted, missing.mpr both.2⟩
    · dsimp only
      rw [Index.row?_remove, if_neg other]

namespace Sample

open FileStore (archiveKey)
open FileTree (IsName checkPath isLongName steps)

/-- A store with the archive of one version of `m`. -/
def shelf (file : String) (data : ByteArray) : FileStore where
  root := ["", "srv"]
  tree := ⟨[(["srv", "m", "@v", file], .file data), (["srv", "m", "@v"], .directory),
    (["srv", "m"], .directory), (["srv"], .directory)]⟩

theorem located_shelf (file : String) (data : ByteArray) :
    (shelf file data).tree.locate true (shelf file data).root = .ok ["srv"] := by
  have short : isLongName "srv" = false := by decide
  have root : checkPath ["", "srv"] = .ok () := rfl
  simp [shelf, FileTree.locate, FileTree.walk, FileTree.at?, FileTree.lookup_entry, short, root,
    bind, Except.bind]

/-- A coordinate whose archive the shelf can hold. -/
structure Fits (c : Coordinate) (key file : String) : Prop where
  written : archiveKey c = .ok key
  split : steps key = ["m", "@v", file]
  relative : FileStore.isRelative key = true
  short : isLongName file = false
  named : IsName file
  sendable : checkPath ["", "srv", "m", "@v", file] = .ok ()

theorem getArchive_shelf {c : Coordinate} {key file : String} (data : ByteArray)
    (fits : Fits c key file) : (shelf file data).getArchive c = .ok data := by
  obtain ⟨written, split, relative, short, named, sendable⟩ := fits
  have short_names : isLongName "srv" = false ∧ isLongName "m" = false ∧
      isLongName "@v" = false := by decide
  obtain ⟨some_key, -⟩ := FileStore.steps_of_archiveKey written
  have path : (shelf file data).path key = ["", "srv", "m", "@v", file] := by
    rw [FileStore.path, split]
    rfl
  have leads : (shelf file data).tree.locate true ["", "srv", "m", "@v", file] =
      .ok ["srv", "m", "@v", file] := by
    simp [shelf, FileTree.locate, FileTree.walk, FileTree.at?, FileTree.lookup_entry, short_names,
      short, named.1, named.2.1, named.2.2, sendable, bind, Except.bind]
  rw [FileStore.getArchive_eq_ok_iff written, FileStore.get_eq_ok_iff_leads some_key, path]
  exact ⟨relative, ["srv"], _, located_shelf file data, leads, by simp,
    by simp [shelf, FileTree.at?]⟩

-- No link leads out of the shelf.
theorem not_roundabout_shelf {key file : String} (data : ByteArray)
    (split : steps key = ["m", "@v", file]) : ¬ (shelf file data).Roundabout ["srv"] key := by
  have short_names : isLongName "srv" = false ∧ isLongName "m" = false ∧
      isLongName "@v" = false := by decide
  have above : checkPath ["", "srv", "m", "@v"] = .ok () := rfl
  have leads : (shelf file data).tree.locate true ["", "srv", "m", "@v"] =
      .ok ["srv", "m", "@v"] := by
    simp [shelf, FileTree.locate, FileTree.walk, FileTree.at?, FileTree.lookup_entry, short_names,
      above, bind, Except.bind]
  have path : ((shelf file data).path key).dropLast = ["", "srv", "m", "@v"] := by
    rw [FileStore.path, split]
    rfl
  rintro ⟨directory, reached, outside⟩
  rw [path, leads] at reached
  cases reached
  exact outside (by decide)

def released : Coordinate := ⟨"m", "v1.0.0"⟩

/-- Accepted, but spelled like the archive of the other. -/
def zipped : Coordinate := ⟨"m", "v1.0.0.zip"⟩

def isolated : Outside Unit where
  exchange _ w := (none, w)
  askRegistry _ w := (.error .noInstances, w)

/-- A proxy that holds one version of `m`. -/
def shelved (c : Coordinate) (file : String) (data : ByteArray) : State :=
  { State.start (shelf file data) with index := ⟨[⟨c, 1, "module m\n", .ofNanos 0⟩]⟩ }

theorem fits_released : Fits released "m/@v/v1.0.0.zip" "v1.0.0.zip" where
  written := rfl
  split := by decide
  relative := by decide
  short := by decide
  named := by
    unfold IsName
    decide
  sendable := rfl

theorem fits_zipped : Fits zipped "m/@v/v1.0.0.zip.zip" "v1.0.0.zip.zip" where
  written := rfl
  split := by decide
  relative := by decide
  short := by decide
  named := by
    unfold IsName
    decide
  sendable := rfl

end Sample

theorem removed_unless_reserved_released :
    Sample.released.Accepted ∧
      (Sample.shelved Sample.released "v1.0.0.zip" ByteArray.empty).store.getArchive
        Sample.released = .ok ByteArray.empty ∧
      ∃ reply next,
        (Sample.shelved Sample.released "v1.0.0.zip" ByteArray.empty).perform Sample.isolated
          (serveOther "DELETE" "/m/@v/v1.0.0") () = (reply, next, ()) ∧
        Removed Sample.released reply next := by
  have accepted : Sample.released.Accepted := by decide +kernel
  have stored := Sample.getArchive_shelf ByteArray.empty Sample.fits_released
  obtain ⟨source, version, anchor, reply, next, folded, folded', located, performed, removed, -⟩ :=
    removed_unless_reserved Sample.isolated
      (Sample.shelved Sample.released "v1.0.0.zip" ByteArray.empty) () Sample.released accepted
      ByteArray.empty stored
  obtain rfl : "m" = source := Except.ok.inj folded
  obtain rfl : "v1.0.0" = version := Except.ok.inj folded'
  obtain rfl : ["srv"] = anchor := Except.ok.inj ((Sample.located_shelf _ _).symm.trans located)
  refine ⟨accepted, stored, reply, next, performed, removed.mpr ⟨by decide, ?_⟩⟩
  exact Sample.not_roundabout_shelf _ (by decide)

/-- The path of a version that ends like an archive is that of an archive, so the version stays
when it is to be removed. -/
theorem zipped_version_not_removed :
    ¬ ∀ (outside : Outside Unit) (s : State) (w : Unit) (c : Coordinate) (data : ByteArray),
      c.Accepted → s.index.Lists c → s.store.getArchive c = .ok data →
      ∀ source version, escape c.source = .ok source → escape c.version = .ok version →
      ∃ reply next, s.perform outside (serveOther "DELETE" ("/" ++ source ++ "/@v/" ++ version)) w =
          (reply, next, w) ∧ Removed c reply next ∧
        ∀ d, d ≠ c → next.index.row? d = s.index.row? d := by
  intro always
  obtain ⟨reply, next, performed, removed, -⟩ := always Sample.isolated
    (Sample.shelved Sample.zipped "v1.0.0.zip.zip" ByteArray.empty) () Sample.zipped
    ByteArray.empty (by decide +kernel) (by decide)
    (Sample.getArchive_shelf _ Sample.fits_zipped) "m" "v1.0.0.zip" rfl rfl
  have named : parse "/m/@v/v1.0.0.zip" = .ok (some (.archive Sample.released)) := by
    decide +kernel
  have refused : (Sample.shelved Sample.zipped "v1.0.0.zip.zip" ByteArray.empty).perform
      Sample.isolated (serveOther "DELETE" "/m/@v/v1.0.0.zip") () = (.bare 405, _, ()) :=
    perform_delete_other named fun d same => nomatch same
  have same : Reply.bare 405 = reply := congrArg Prod.fst (refused.symm.trans performed)
  rw [← same] at removed
  exact absurd removed.answered (by decide)

end Proxy

end ModuleDepot
