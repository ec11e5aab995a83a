import ModuleDepot.Proofs.AnsweredStatuses
import ModuleDepot.Proofs.OpenProxyAddresses
import ModuleDepot.Proofs.SortOrders
import ModuleDepot.Proofs.Utf8Texts

/-!
Lists of versions as texts. Each version stands in its own line; since no version is empty or
holds a blank, and every sign that ends a line is a blank, the lines are read back as the versions
that were written, in their order.
-/

namespace ModuleDepot

/-- A version as a coordinate can have it: it is there, and no letter of it is a blank. -/
def Version.Unbroken (version : String) : Prop :=
  version ≠ "" ∧ ∀ letter ∈ version.toList, Text.isBlank letter = false

theorem Coordinate.Accepted.unbroken {c : Coordinate} (accepted : c.Accepted) :
    Version.Unbroken c.version := by
  have sound := (accepted_iff_sound c).mp accepted
  exact ⟨sound.some_version, fun letter member =>
    (sound.clean letter (List.mem_append_right _ member)).2⟩

namespace Text

theorem dropWhile_isBlank {text : List Char} (unbroken : ∀ letter ∈ text, isBlank letter = false) :
    text.dropWhile isBlank = text := by
  cases text with
  | nil => rfl
  | cons letter rest => rw [List.dropWhile_cons, unbroken letter List.mem_cons_self]; rfl

theorem trim_eq_self {text : List Char} (unbroken : ∀ letter ∈ text, isBlank letter = false) :
    trim text = text := by
  have backward : ∀ letter ∈ text.reverse, isBlank letter = false := fun letter member =>
    unbroken letter (List.mem_reverse.mp member)
  rw [trim, dropWhile_isBlank unbroken, dropWhile_isBlank backward, List.reverse_reverse]

theorem not_mem_of_isBlank {text : List Char} {mark : Char}
    (unbroken : ∀ letter ∈ text, isBlank letter = false) (blank : isBlank mark = true) :
    mark ∉ text := fun member => by
  rw [unbroken mark member] at blank
  cases blank

end Text

namespace OpenProxy

open Proxy (versionLines)
open Version (Unbroken)

/-! ## The text of a list -/

/-- Lines that hold no sign that ends a line are the lines of the text in which each is ended. -/
theorem lines_of_ended {texts : List (List Char)} (some_text : texts ≠ [])
    (fed : ∀ text ∈ texts, '\n' ∉ text) (returned : ∀ text ∈ texts, '\r' ∉ text) :
    lines (['\n'].intercalate texts ++ ['\n']) = texts := by
  have parts : (['\n'].intercalate texts ++ ['\n']).splitOn '\n' = texts ++ [[]] := by
    rw [List.splitOn_append_cons_self, List.splitOn_intercalate '\n' fed some_text,
      List.splitOn_nil]
  have whole : ∀ text ∈ texts, (Text.beforeEnding? ['\r'] text).getD text = text := by
    intro text member
    have absent : Text.beforeEnding? ['\r'] text = none := by
      refine Option.eq_none_iff_forall_ne_some.mpr fun front found => returned text member ?_
      rw [← List.isSuffixOf?_eq_some_iff_append_eq.mp found]
      exact List.mem_append_right _ List.mem_cons_self
    rw [absent, Option.getD_none]
  rw [lines, parts, List.getLast?_concat, Option.getD_some, if_pos rfl, List.append_nil,
    List.dropLast_concat]
  exact (List.map_congr_left (g := id) whole).trans (List.map_id texts)

theorem toList_versionLines {versions : List String} (some_version : versions ≠ [])
    (unbroken : ∀ version ∈ versions, Unbroken version) : (versionLines versions).toList =
      ['\n'].intercalate (versions.map String.toList) ++ ['\n'] := by
  have body : ("\n".intercalate versions).toList =
      ['\n'].intercalate (versions.map String.toList) := String.toList_intercalate
  have some_body : "\n".intercalate versions ≠ "" := by
    obtain ⟨first, rest, rfl⟩ := List.exists_cons_of_ne_nil some_version
    have filled : first.toList ≠ [] := fun none =>
      (unbroken first List.mem_cons_self).1 (String.toList_inj.mp none)
    rw [Ne, ← String.toList_inj, body]
    cases rest with
    | nil => simpa using filled
    | cons next rest => simp [List.intercalate_cons_cons]
  rw [versionLines, if_neg some_body, String.toList_append, body]
  rfl

/-- No version is cut, trimmed or dropped. -/
theorem versionsIn_versionLines {versions : List String}
    (unbroken : ∀ version ∈ versions, Unbroken version) :
    versionsIn (versionLines versions) = versions := by
  by_cases some_version : versions = []
  · rw [some_version]
    decide
  · have letters : ∀ text ∈ versions.map String.toList,
        text ≠ [] ∧ ∀ letter ∈ text, Text.isBlank letter = false := by
      intro text member
      obtain ⟨version, among, rfl⟩ := List.mem_map.mp member
      obtain ⟨filled, clean⟩ := unbroken version among
      exact ⟨fun none => filled (String.toList_inj.mp none), clean⟩
    have split : lines (versionLines versions).toList = versions.map String.toList := by
      rw [toList_versionLines some_version unbroken]
      refine lines_of_ended (by simpa using some_version) (fun text member => ?_)
        fun text member => ?_
      · exact Text.not_mem_of_isBlank (letters text member).2 (by decide)
      · exact Text.not_mem_of_isBlank (letters text member).2 (by decide)
    have trimmed : (versions.map String.toList).map Text.trim = versions.map String.toList :=
      (List.map_congr_left (g := id) fun text member =>
        Text.trim_eq_self (letters text member).2).trans (List.map_id _)
    have kept : (versions.map String.toList).filter (!·.isEmpty) = versions.map String.toList :=
      List.filter_eq_self.mpr fun text member => by simpa using (letters text member).1
    rw [versionsIn, split, trimmed, kept, List.map_map]
    exact (List.map_congr_left (g := id) fun version _ => String.ofList_toList).trans
      (List.map_id versions)

/-! ## Asking for a list -/

section

variable {τ : Type} {network : Http.Request → τ → Option Http.Response × τ} {t next : τ}
  {url : Url} {response : Http.Response} {p : OpenProxy} {source : String}

theorem run_get (reachable : Http.isReachable url = true)
    (success : Http.isSuccess response.status = true)
    (answered : network (question url) t = (some response, next)) :
    (get url).run network t = (.ok response.body, next) := by
  have sent : (Http.sendTo "GET" url [] "").run network t = (.ok response, next) := by
    rw [Http.sendTo, show Http.checkHeaders [] = .ok [] from rfl]
    simp only [reachable, Bool.not_true, Bool.false_eq_true, if_false, List.append_nil]
    change Procedure.run network (.ask (question url) _) t = _
    rw [Procedure.run, answered]
    rfl
  refine (Procedure.run_andThen _ _ _ _).trans ?_
  rw [sent]
  simp only [success, if_true]
  rfl

theorem run_list (asked : p.listUrl source = .ok url) (reachable : Http.isReachable url = true)
    (success : Http.isSuccess response.status = true)
    (answered : network (question url) t = (some response, next)) :
    (p.list source).run network t = (.ok (versionsIn (Bytes.lossyText response.body)), next) := by
  rw [list, asked]
  refine (Procedure.run_andThen _ _ _ _).trans ?_
  rw [run_get reachable success answered]
  rfl

end

end OpenProxy

namespace Proxy

open OpenProxy (question versionsIn)
open Version (Unbroken)

theorem unbroken_versions {index : Index}
    (unbroken : ∀ row ∈ index.rows, Unbroken row.coordinate.version) (source : String) :
    ∀ version ∈ index.versions source, Unbroken version := by
  intro version member
  obtain ⟨row, among, rfl⟩ := List.mem_map.mp (List.mem_mergeSort.mp member)
  exact unbroken row (List.mem_filter.mp among).1

/-- The versions of a source survive their way over the network. Where no version in the index is
empty or holds a blank, the reply to a request for a source's list is read as exactly the versions
of that source, in their order; and a client that gets this reply from the address that it asks
for the list takes these versions from it. -/
theorem listed_versions_read_back {σ : Type} (outside : Outside σ) (s : State) (w : σ)
    (unbroken : ∀ row ∈ s.index.rows, Unbroken row.coordinate.version) (source : String) :
    ∃ reply, s.perform outside (serveModule "GET" (.list source)) w = (reply, s, w) ∧
      (∀ path, ModulePath.parse path = .ok (some (.list source)) →
        s.perform outside (serveOther "GET" path) w = (reply, s, w)) ∧
      versionsIn (Bytes.lossyText reply.body) = s.index.versions source ∧
      ∀ (p : OpenProxy) (url : Url), p.listUrl source = .ok url → Http.isReachable url = true →
        ∀ (τ : Type) (network : Http.Request → τ → Option Http.Response × τ) (t next : τ),
          network (question url) t = (some ⟨reply.status, reply.body⟩, next) →
          (p.list source).run network t = (.ok (s.index.versions source), next) := by
  have read : versionsIn (Bytes.lossyText (versionLines (s.index.versions source)).toUTF8) =
      s.index.versions source := by
    rw [Bytes.lossyText_toUTF8]
    exact OpenProxy.versionsIn_versionLines (unbroken_versions unbroken source)
  refine ⟨_, perform_list source, fun path named => ?_, read, ?_⟩
  · rw [serveOther, named]
    exact perform_list source
  · intro p url asked reachable τ network t next answered
    rw [OpenProxy.run_list asked reachable rfl answered]
    exact congrArg (fun versions => (Except.ok versions, next)) read

namespace Sample

/-- Versions that came in out of order, the last of them no semantic version: it ends in a letter
without width, which is no blank. -/
def versioned : State :=
  { State.start ⟨[], .empty⟩ with
    index := ⟨["v1.10.0", "v1.9.0", "dev\u200b"].map fun version =>
      ⟨⟨"h.io/m", version⟩, 1, "module m\n", .ofNanos 0⟩⟩ }

theorem versions_versioned :
    versioned.index.versions "h.io/m" = ["v1.9.0", "v1.10.0", "dev\u200b"] := by
  have perm := List.mergeSort_perm ["v1.10.0", "v1.9.0", "dev\u200b"] fun a b =>
    (Version.textOrder a b).isLE
  have apart : ∀ a ∈ ["v1.10.0", "v1.9.0", "dev\u200b"],
      ∀ b ∈ ["v1.9.0", "v1.10.0", "dev\u200b"], (Version.textOrder a b).isLE = true →
        (Version.textOrder b a).isLE = true → a = b := by decide +kernel
  change ["v1.10.0", "v1.9.0", "dev\u200b"].mergeSort _ = _
  exact List.Perm.eq_of_pairwise
    (fun a b first second => apart a (perm.subset first) b second) (pairwise_sorted _)
    (by decide +kernel) (perm.trans (by decide))

/-- An open proxy at the root of its host. -/
def upstream : OpenProxy :=
  ⟨⟨"http".toList, [], none, some (.domain "p.io".toList), none, .segments [[]], none, none⟩⟩

def listAddress : Url :=
  ⟨"http".toList, [], none, some (.domain "p.io".toList), none,
    .segments ["h.io".toList, "m".toList, "@v".toList, "list".toList], none, none⟩

theorem handle_listing :
    handle false ⟨"GET", (question listAddress).url.display, none, ""⟩ =
      serveOther "GET" "/h.io/m/@v/list" := by
  have path : Http.Incoming.path ⟨"GET", (question listAddress).url.display, none, ""⟩ =
      "/h.io/m/@v/list" := by decide +kernel
  rw [handle, path]
  rfl

/-- A network that brings every request to one proxy. -/
def behind (request : Http.Request) (s : State) : Option Http.Response × State :=
  let served := s.perform isolated
    (serve false ⟨request.method, request.url.display, none, request.body⟩) ()
  (some ⟨served.1.status, served.1.body⟩, served.2.1)

end Sample

/-- The client of one proxy takes from another one the versions that this one has. -/
theorem listed_versions_read_back_behind :
    (∀ row ∈ Sample.versioned.index.rows,
        row.coordinate.Accepted ∧ Unbroken row.coordinate.version) ∧
      OpenProxy.ofBase "http://p.io" = .ok Sample.upstream ∧
      (Sample.upstream.list "h.io/m").run Sample.behind Sample.versioned =
        (.ok ["v1.9.0", "v1.10.0", "dev\u200b"], Sample.versioned) := by
  have accepted : ∀ row ∈ Sample.versioned.index.rows, row.coordinate.Accepted := by decide
  have unbroken : ∀ row ∈ Sample.versioned.index.rows, Unbroken row.coordinate.version :=
    fun row member => (accepted row member).unbroken
  obtain ⟨reply, -, routed, -, client⟩ :=
    listed_versions_read_back Sample.isolated Sample.versioned () unbroken "h.io/m"
  have performed : (serveOther "GET" "/h.io/m/@v/list").run (State.answer Sample.isolated)
      (Sample.versioned, ()) = (reply, Sample.versioned, ()) := routed _ (by decide +kernel)
  have answered : Sample.behind (question Sample.listAddress) Sample.versioned =
      (some ⟨reply.status, reply.body⟩, Sample.versioned) := by
    have served : Sample.versioned.perform Sample.isolated
        (serve false ⟨"GET", (question Sample.listAddress).url.display, none, ""⟩) () =
          (reply, Sample.versioned, ()) := by
      rw [serve, Sample.handle_listing]
      refine (Procedure.run_andThen _ _ _ _).trans ?_
      rw [performed]
      rfl
    exact congrArg (fun served : Http.Reply × State × Unit =>
      (some (Http.Response.mk served.1.status served.1.body), served.2.1)) served
  refine ⟨fun row member => ⟨accepted row member, unbroken row member⟩,
    ok_of_toOption (by decide +kernel), ?_⟩
  rw [← Sample.versions_versioned]
  exact client Sample.upstream Sample.listAddress (ok_of_toOption (by decide +kernel))
    (by decide) State Sample.behind _ _ answered

end Proxy

end ModuleDepot
