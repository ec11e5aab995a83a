import ModuleDepot.Origin.OpenProxy
import ModuleDepot.Proofs.ArchiveNames
import ModuleDepot.Proofs.JoinedPaths
import ModuleDepot.Proofs.ModulePaths
import ModuleDepot.Proofs.ProcedureTurns

/-!
Where an open proxy is asked for a module. What is asked is joined to the proxy's base as a
relative address, so that a module's source may be taken for something else than a path: for
an address of its own, for a query, for a way up. There is one condition on base and text under
which the request stays below the base, and whenever it fails the request does not.
-/

namespace ModuleDepot

open Procedure

namespace OpenProxy

variable {u : Url} {p : OpenProxy} {c : Coordinate} {source : String}
  {sent : List (Event Http.Request fun _ => Option Http.Response)}

/-! ## What is asked -/

/-- The request for what stands at an address. -/
def question (u : Url) : Http.Request := ⟨"GET", u.bare, Http.userHeader u, ""⟩

/-- One request is made for what stands at an address that can be reached, and none otherwise. -/
def Asks (found : Except OriginError Url)
    (sent : List (Event Http.Request fun _ => Option Http.Response)) : Prop :=
  match found with
  | .error _ => sent = []
  | .ok u =>
      if Http.isReachable u then ∃ response, sent = [⟨question u, response⟩] else sent = []

theorem asks_of_get {answer : Except OriginError ByteArray} (trace : Trace (get u) sent answer) :
    Asks (.ok u) sent := by
  have noHeaders : Http.checkHeaders [] = .ok [] := rfl
  unfold get Http.sendTo at trace
  rw [noHeaders] at trace
  rw [Asks]
  cases reachable : Http.isReachable u with
  | false =>
      simp only [reachable, Bool.not_false, if_true] at trace
      simpa using trace_pure trace
  | true =>
      simp only [reachable, Bool.not_true, Bool.false_eq_true, if_false, List.append_nil] at trace
      obtain ⟨first, answered, second, own, following, rfl⟩ := trace_bind trace
      obtain ⟨response, rest, onResponse, rfl⟩ := trace_call_bind own
      have silent : second = [] := by
        cases answered with
        | error e => exact trace_pure following
        | ok found =>
            dsimp only at following
            split at following <;> exact trace_pure following
      have ended : rest = [] := by cases response <;> exact trace_pure onResponse
      rw [silent, ended]
      exact ⟨response, rfl⟩

theorem asks_of_archive {answer : Except OriginError ByteArray}
    (trace : Trace (p.archive c) sent answer) : Asks (p.archiveUrl c) sent := by
  unfold archive at trace
  cases found : p.archiveUrl c with
  | error e =>
      rw [found] at trace
      exact trace_pure trace
  | ok u =>
      rw [found] at trace
      exact asks_of_get trace

theorem asks_of_list {answer : Except OriginError (List String)}
    (trace : Trace (p.list source) sent answer) : Asks (p.listUrl source) sent := by
  unfold list at trace
  cases found : p.listUrl source with
  | error e =>
      rw [found] at trace
      exact trace_pure trace
  | ok u =>
      rw [found] at trace
      obtain ⟨first, body, second, own, following, rfl⟩ := trace_bind trace
      have silent : second = [] := by cases body <;> exact trace_pure following
      rw [silent, List.append_nil]
      exact asks_of_get own

/-! ## Where it is asked -/

/-- An address with the scheme, host and port of a base, and with the path that a text is below
that base. How the path is percent-encoded does not matter. -/
structure IsBelow (base : Url) (text : String) (u : Url) : Prop where
  scheme : u.scheme = base.scheme
  host : u.host = base.host
  portNumber : u.portNumber = base.portNumber
  path : Url.decodeBytes (Url.pathText u.path) =
    Url.decodeBytes (base.basePath ++ '/' :: text.toList)

/-- Requests are below a base exactly if the text reads so, and then one is made. -/
structure Confined (base : Url) (text : String)
    (sent : List (Event Http.Request fun _ => Option Http.Response)) : Prop where
  below_iff : ∀ x ∈ sent, IsBelow base text x.1.url ↔ base.ReadsBelow text.toList
  made : base.ReadsBelow text.toList → Http.isReachable base = true → ∃ x, sent = [x]

theorem confined_of_asks {text : String} (tidy : Url.Tidy text.toList)
    (asks : Asks (p.urlFor text) sent) : Confined p.base text sent := by
  have reads_iff : ∀ u, p.base.join text = .ok u →
      (IsBelow p.base text u.bare ↔ p.base.ReadsBelow text.toList) := by
    intro u joined
    have again : p.base.join (String.ofList text.toList) = .ok u := by
      rwa [String.ofList_toList]
    constructor
    · intro below
      exact Url.readsBelow_of_weight tidy again
        (congrArg (fun bytes => (bytes.map Url.byteWeight).sum) below.path)
    · intro reads
      obtain ⟨v, same, scheme, host, portNumber, path⟩ := Url.join_of_readsBelow tidy reads
      rw [again] at same
      cases same
      exact ⟨scheme, host, portNumber, path⟩
  constructor
  · intro x member
    cases joined : p.base.join text with
    | error e =>
        rw [urlFor, joined] at asks
        rw [show sent = [] from asks] at member
        cases member
    | ok u =>
        rw [urlFor, joined, Asks] at asks
        split at asks
        · obtain ⟨response, rfl⟩ := asks
          rw [List.mem_singleton.mp member]
          exact reads_iff u joined
        · rw [asks] at member
          cases member
  · intro reads reachable
    obtain ⟨u, joined, scheme, -⟩ := Url.join_of_readsBelow tidy reads
    rw [String.ofList_toList] at joined
    have same : Http.isReachable u = true := by rwa [Http.isReachable, scheme]
    rw [urlFor, joined, Asks, if_pos same] at asks
    obtain ⟨response, rfl⟩ := asks
    exact ⟨_, rfl⟩

/-! ## Escaped coordinates -/

theorem unskipped_of_escape {text escaped : String}
    (clean : ∀ d ∈ text.toList, Coordinate.isForbidden d = false)
    (done : EscapedPath.escape text = .ok escaped) :
    ∀ d ∈ escaped.toList, Url.isSkipped d = false := by
  obtain ⟨folded, -⟩ :=
    EscapedPath.eq_flatMap_of_foldCase ((EscapedPath.escape_eq_ok_iff text escaped).mp done)
  intro d member
  rw [folded, List.mem_flatMap] at member
  obtain ⟨a, within, written⟩ := member
  unfold EscapedPath.foldChar at written
  split at written
  · next upper =>
      simp only [List.mem_cons, List.not_mem_nil, or_false] at written
      rcases written with rfl | rfl
      · rfl
      · have small := (EscapedPath.lower_of_upper a upper).1
        refine Bool.eq_false_iff.mpr fun skipped => ?_
        simp only [Url.isSkipped, Bool.or_eq_true, beq_iff_eq] at skipped
        rcases skipped with (same | same) | same <;> rw [same] at small <;> cases small
  · obtain rfl := List.mem_singleton.mp written
    have allowed := clean d within
    refine Bool.eq_false_iff.mpr fun skipped => ?_
    simp only [Url.isSkipped, Bool.or_eq_true, beq_iff_eq] at skipped
    rcases skipped with (rfl | rfl) | rfl <;> cases allowed

/-- A place below an accepted source is tidy. -/
theorem tidy_of_accepted (accepted : c.Accepted) (done : EscapedPath.escape c.source = .ok source)
    (rest : String) (unskipped : rest.toList.any Url.isSkipped = false)
    (ends : ∃ front last, rest.toList = front ++ [last] ∧ Url.isTrimmed last = false) :
    Url.Tidy (source ++ rest).toList := by
  obtain ⟨filled, -, unslashed⟩ := accepted.filled
  have first := EscapedPath.head?_foldCase ((EscapedPath.escape_eq_ok_iff _ _).mp done)
  obtain ⟨front, last, whole, counts⟩ := ends
  rw [String.toList_append]
  refine ⟨?_, ⟨source.toList ++ front, last, by rw [whole, List.append_assoc], counts⟩, ?_⟩
  · have some : source.toList ≠ [] := fun none =>
      filled (String.toList_inj.mp (first.2.mp none))
    rw [List.head?_append_of_ne_nil _ some]
    exact fun slash => unslashed (first.1.mp slash)
  · intro d member
    rcases List.mem_append.mp member with inSource | inRest
    · exact unskipped_of_escape
        (fun e within => accepted.clean e (List.mem_append_left _ within)) done d inSource
    · exact Bool.eq_false_iff.mpr (List.any_eq_false.mp unskipped d inRest)

theorem escape_of_unmarked {text : String} (unmarked : '!' ∉ text.toList) :
    ∃ escaped, EscapedPath.escape text = .ok escaped :=
  ⟨String.ofList (text.toList.flatMap EscapedPath.foldChar),
    (EscapedPath.escape_eq_ok_iff _ _).mpr
      (by rw [EscapedPath.foldCase_of_unmarked unmarked, String.toList_ofList])⟩

/-- A request for an accepted coordinate, or for the list of its versions, is below the base of
the open proxy exactly if what is joined to the base reads as a path below it. -/
theorem requests_confined (p : OpenProxy) (accepted : c.Accepted)
    (unmarked : '!' ∉ c.source.toList ∧ '!' ∉ c.version.toList) :
    ∃ source version, EscapedPath.escape c.source = .ok source ∧
      EscapedPath.escape c.version = .ok version ∧
      (∀ sent answer, Trace (p.archive c) sent answer →
        Confined p.base (source ++ "/@v/" ++ version ++ ".zip") sent) ∧
      ∀ sent answer, Trace (p.list c.source) sent answer →
        Confined p.base (source ++ "/@v/list") sent := by
  obtain ⟨source, folded⟩ := escape_of_unmarked unmarked.1
  obtain ⟨version, folded'⟩ := escape_of_unmarked unmarked.2
  refine ⟨source, version, folded, folded', fun sent answer trace => ?_,
    fun sent answer trace => ?_⟩
  · have keyed : c.archiveKey = .ok (source ++ "/@v/" ++ version ++ ".zip") :=
      (Coordinate.archiveKey_eq_ok_iff c _).mpr ⟨source, version, folded, folded', rfl⟩
    have asks := asks_of_archive trace
    rw [ModulePath.archiveUrl_eq keyed] at asks
    refine confined_of_asks ?_ asks
    have below := tidy_of_accepted accepted folded ("/@v/" ++ version ++ ".zip") ?_ ?_
    · simpa [String.append_assoc] using below
    · have inVersion := unskipped_of_escape
        (fun d within => accepted.clean d (List.mem_append_right _ within)) folded'
      simp only [String.toList_append, List.any_append, Bool.or_eq_false_iff]
      refine ⟨⟨by decide, List.any_eq_false.mpr fun d inside => ?_⟩, by decide⟩
      exact Bool.eq_false_iff.mp (inVersion d inside)
    · exact ⟨("/@v/" ++ version ++ ".zi").toList, 'p', by simp, by decide⟩
  · have asks := asks_of_list trace
    have url : p.listUrl c.source = p.urlFor (source ++ "/@v/list") := by
      rw [listUrl, escaped, folded]
      rfl
    rw [url] at asks
    refine confined_of_asks ?_ asks
    exact tidy_of_accepted accepted folded "/@v/list" (by decide)
      ⟨"/@v/lis".toList, 't', by decide, by decide⟩

/-- The base of a reachable open proxy ends in a slash, unless its text has a query or fragment. -/
theorem slash_of_ofBase {text : String} (made : ofBase text = .ok p) (unasked : '?' ∉ text.toList)
    (unmarked : '#' ∉ text.toList) (reachable : Http.isReachable p.base = true) :
    ∃ parts, p.base.path = .segments parts ∧ parts.getLastD [] = [] := by
  have inside : ∀ c, c ∈ Text.dropTrailing '/' text.toList → c ∈ text.toList := by
    intro c member
    exact List.mem_reverse.mp ((List.dropWhile_sublist _).subset (List.mem_reverse.mp member))
  unfold ofBase at made
  split at made
  · next base read =>
      cases made
      exact Url.slash_of_read (fun member => unasked (inside _ member))
        (fun member => unmarked (inside _ member)) read
        (by simpa [Http.isReachable] using reachable)
  · cases made

namespace Sample

/-- An open proxy below a path of its host. -/
def mirror : OpenProxy :=
  ⟨⟨"http".toList, [], none, some (.domain "p.io".toList), none,
    .segments ["go".toList, []], none, none⟩⟩

theorem made_mirror : ofBase "http://p.io/go" = .ok mirror := ok_of_toOption (by decide +kernel)

/-- A module with a capital letter in its source. -/
def azure : Coordinate := ⟨"g.com/Azure", "v1"⟩

theorem readsBelow_mirror : mirror.base.ReadsBelow "g.com/!azure/@v/v1.zip".toList where
  slash := slash_of_ofBase made_mirror (by decide) (by decide) (by decide)
  starts := by
    rintro c ⟨⟩
    rfl
  schemeless := by decide
  unasked := by decide
  unmarked := by decide
  slashes := by decide
  dotless := by decide

end Sample

theorem requests_confined_azure :
    Sample.azure.Accepted ∧ ('!' ∉ Sample.azure.source.toList ∧ '!' ∉ Sample.azure.version.toList) ∧
      ∀ sent answer, Trace (Sample.mirror.archive Sample.azure) sent answer →
        ∃ x, sent = [x] ∧ IsBelow Sample.mirror.base "g.com/!azure/@v/v1.zip" x.1.url := by
  have accepted : Sample.azure.Accepted := by decide
  have unmarked : '!' ∉ Sample.azure.source.toList ∧ '!' ∉ Sample.azure.version.toList := by decide
  obtain ⟨source, version, folded, folded', archive, -⟩ :=
    requests_confined Sample.mirror accepted unmarked
  obtain rfl : source = "g.com/!azure" := Except.ok.inj (folded.symm.trans (by decide))
  obtain rfl : version = "v1" := Except.ok.inj (folded'.symm.trans (by decide))
  refine ⟨accepted, unmarked, fun sent answer trace => ?_⟩
  have confined := archive sent answer trace
  obtain ⟨x, rfl⟩ := confined.made Sample.readsBelow_mirror (by decide)
  exact ⟨x, rfl, (confined.below_iff x List.mem_cons_self).mpr Sample.readsBelow_mirror⟩

/-! ## Sources that are addresses -/

namespace Sample

/-- The address of an archive on another host. -/
def elsewhere : Url :=
  ⟨"http".toList, [], none, some (.domain "evil.io".toList), none,
    .segments ["x".toList, "@v".toList, "v1.zip".toList], none, none⟩

theorem archiveUrl_elsewhere : mirror.archiveUrl ⟨"http://evil.io/x", "v1"⟩ = .ok elsewhere :=
  ok_of_toOption (by decide +kernel)

theorem trace_elsewhere :
    ∃ answer, Trace (mirror.archive ⟨"http://evil.io/x", "v1"⟩) [⟨question elsewhere, none⟩]
      answer := by
  rw [archive, archiveUrl_elsewhere]
  exact ⟨_, Trace.ask (Trace.done _)⟩

end Sample

/-- The source of an accepted coordinate may direct the client to another host. -/
theorem source_may_lead_elsewhere :
    ¬ ∀ (text : String) (p : OpenProxy) (c : Coordinate) (source version : String)
      (sent : List (Event Http.Request fun _ => Option Http.Response))
      (answer : Except OriginError ByteArray), ofBase text = .ok p → c.Accepted →
      '!' ∉ c.source.toList → '!' ∉ c.version.toList → EscapedPath.escape c.source = .ok source →
      EscapedPath.escape c.version = .ok version → Trace (p.archive c) sent answer →
      ∀ x ∈ sent, IsBelow p.base (source ++ "/@v/" ++ version ++ ".zip") x.1.url := by
  intro always
  obtain ⟨answer, trace⟩ := Sample.trace_elsewhere
  have below := always _ _ ⟨"http://evil.io/x", "v1"⟩ "http://evil.io/x" "v1" _ _ Sample.made_mirror
    (by decide) (by decide) (by decide) (by decide) (by decide) trace _ List.mem_cons_self
  exact absurd below.host (by decide)

end OpenProxy

end ModuleDepot
