import ModuleDepot.Origin.Resolver
import ModuleDepot.Proofs.Outcomes
import ModuleDepot.Proofs.ResolutionSteps
import ModuleDepot.Settings.Basic

/-!
Requests stay with the transports that are served. The first request does, a discovered
place does whatever the page says, and of the other steps only those that name a transport
could leave them, which checked settings rule out.
-/

namespace ModuleDepot

open Procedure

/-! ## Discovered places -/

namespace Page

theorem served_placeHere {text : List Char} {place : Place} (found : placeHere text = some place) :
    place.transport ∈ clientTransports := by
  simp only [placeHere, Option.bind_eq_bind, Option.bind_eq_some_iff] at found
  obtain ⟨rest, -, after, -, found⟩ := found
  split at found
  · cases found
  split at found
  · split at found
    · cases found
    · -- The transport was cut off together with the letter that tells the two apart.
      cases found
      split <;> simp [clientTransports]
  · cases found

theorem served_placeIn {text : List Char} {place : Place} (found : placeIn text = some place) :
    place.transport ∈ clientTransports := by
  induction text with
  | nil => cases found
  | cons c rest ih =>
      rcases Option.or_eq_some_iff.mp found with here | ⟨_, later⟩
      · exact served_placeHere here
      · exact ih later

theorem served_place {page : String} {found : Place} (told : place page = .ok found) :
    found.transport ∈ clientTransports := by
  unfold place at told
  split at told
  · cases told
  · split at told
    · next located =>
        cases told
        exact served_placeIn located
    · cases told

end Page

/-! ## Steps and runs -/

variable {events : List (Event Http.Request fun _ => Option Http.Response)} {r next : FetchRequest}

/-- A step that names a transport names one that is served. -/
def Transform.NamesServed : Transform → Prop
  | .transport _ name => name ∈ clientTransports
  | _ => True

theorem served_policy {t : Transform} (names : t.NamesServed)
    (served : r.transport ∈ clientTransports) : (t.policy r).transport ∈ clientTransports := by
  cases t with
  | redirect domain target | headers domain entries =>
      dsimp only [Transform.policy]
      split <;> exact served
  | transport domain name =>
      dsimp only [Transform.policy]
      split
      · exact names
      · exact served
  | discover mode domains | path templates => exact served

/-- One step, whatever the network answers. -/
theorem Transform.Passed.served {t : Transform} {asked : List Asked} (names : t.NamesServed)
    (served : r.transport ∈ clientTransports) (passed : t.Passed r asked next) :
    next.transport ∈ clientTransports := by
  cases passed with
  | significant => exact served_policy names served
  | shaped | unasked | forgiven => exact served
  | moved _ trace =>
      obtain ⟨_, place, told, rfl⟩ := FetchRequest.moved_of_trace trace
      exact Page.served_place told

/-- All steps, one after another. -/
theorem served_walk {legs : List Leg} (names : ∀ leg ∈ legs, leg.step.NamesServed)
    (served : r.transport ∈ clientTransports) (walk : Walk r legs next) :
    next.transport ∈ clientTransports := by
  induction walk with
  | stay => exact served
  | go passed _ ih =>
      obtain ⟨own, others⟩ := List.forall_mem_cons.mp names
      exact ih others (passed.served own served)

/-! ## Checked settings -/

namespace Settings

/-- The check passes exactly the steps that name none but served transports. -/
theorem strangeTransport?_eq_none_iff (steps : List Transform) :
    strangeTransport? steps = none ↔ ∀ t ∈ steps, t.NamesServed := by
  induction steps with
  | nil => simp [strangeTransport?]
  | cons t rest ih =>
      rw [List.forall_mem_cons, ← ih]
      cases t with
      | transport domain name =>
          have served : name ∈ clientTransports ↔ name ∈ transports := Iff.rfl
          by_cases known : name ∈ transports <;>
            simp [strangeTransport?, Transform.NamesServed, served, known]
      | redirect | discover | path | headers => simp [strangeTransport?, Transform.NamesServed]

theorem names_of_checked {f : Fetching} (checked : f.fault? = none) :
    ∀ t ∈ f.transforms, t.NamesServed := by
  unfold Fetching.fault? at checked
  split at checked
  · cases checked
  · exact (strangeTransport?_eq_none_iff f.transforms).mp checked

end Settings

/-- Fetching itself never complains of a transport. -/
theorem supported_fetch {answer : Except OriginError ByteArray}
    (trace : Trace r.fetch events answer) (name : String) :
    answer ≠ .error (.unsupportedTransport name) := by
  rintro rfl
  unfold FetchRequest.fetch at trace
  split at trace
  · cases trace
  · obtain ⟨_, sent, _, _, following, rfl⟩ := trace_bind trace
    cases sent with
    | error e => cases following
    | ok response =>
        dsimp only at following
        split at following <;> cases following

/-- Under checked settings every resolution that succeeds ends with a transport that is served,
so that fetching is never refused for its transport. -/
theorem resolved_transport_served {f : Settings.Fetching} (checked : f.fault? = none)
    {c : Coordinate} (trace : Trace (resolve f.transforms c) events (.ok next)) :
    (next.transport = "http" ∨ next.transport = "https") ∧
      ∀ sent answer name, Trace (next.fetchOver clientTransports) sent answer →
        answer ≠ .error (.unsupportedTransport name) := by
  have first : (FetchRequest.ofCoordinate c).transport ∈ clientTransports := by
    simp [FetchRequest.ofCoordinate, clientTransports]
  obtain ⟨legs, walk, same, -⟩ := trace_follow_ok_iff.mp trace
  have served : next.transport ∈ clientTransports := by
    refine served_walk (fun leg member => ?_) first walk
    exact Settings.names_of_checked checked leg.step (same ▸ List.mem_map_of_mem member)
  constructor
  · simpa [clientTransports] using served
  · intro sent answer name fetching
    have listed : clientTransports.contains next.transport = true :=
      List.contains_iff_mem.mpr served
    rw [FetchRequest.fetchOver, if_pos listed] at fetching
    exact supported_fetch fetching name

/-! ## A module that moves from one transport to another -/

namespace Sample

/-- One host is asked over plain HTTP where its modules are kept. -/
def fetching : Settings.Fetching :=
  { Settings.Fetching.standard with
    transforms := [.transport "git.corp" "http", .discover .automatic []] }

def lookup : Http.Request :=
  ⟨"GET", ⟨"http".toList, [], none, some (.domain "git.corp".toList), none,
    .segments ["m".toList], some "go-get=1".toList, none⟩, [], ""⟩

def page : String := "<meta name=\"go-import\" content=\"git.corp/m git https://h/m\">"

def found : FetchRequest := ⟨"https", "h", ["m"], "v1", "", []⟩

theorem read_lookup : Url.read "http://git.corp/m?go-get=1" = .ok lookup.url :=
  ok_of_toOption (by decide +kernel)

theorem place_page : Page.place (Bytes.lossyText page.toUTF8) = .ok ⟨"https", "h", ["m"]⟩ :=
  ok_of_toOption (by decide +kernel)

theorem trace_lookup :
    Trace (resolve fetching.transforms ⟨"git.corp/m", "v1"⟩)
      [⟨lookup, some ⟨200, page.toUTF8⟩⟩] (.ok found) := by
  have sent : Trace (Http.send "GET" "http://git.corp/m?go-get=1" [] "")
      [⟨lookup, some ⟨200, page.toUTF8⟩⟩] (.ok ⟨200, page.toUTF8⟩) := by
    rw [Http.send, read_lookup]
    exact Trace.ask (Trace.done _)
  have discovered : Trace (FetchRequest.discover ⟨"http", "git.corp", ["m"], "v1", "", []⟩)
      [⟨lookup, some ⟨200, page.toUTF8⟩⟩] (.ok found) := by
    refine Trace.bind sent ?_
    simp only [place_page]
    exact Trace.done _
  have moved : Trace ((Transform.discover .automatic []).apply
      ⟨"http", "git.corp", ["m"], "v1", "", []⟩) [⟨lookup, some ⟨200, page.toUTF8⟩⟩]
      (.ok found) := by
    dsimp only [Transform.apply]
    rw [if_neg (by decide)]
    exact Trace.bind discovered (Trace.done _)
  unfold resolve fetching FetchRequest.follow
  refine Trace.bind (Trace.done _) ?_
  dsimp only [FetchRequest.follow]
  exact Trace.bind moved (Trace.done _)

end Sample

theorem resolved_transport_served_moved :
    Sample.fetching.fault? = none ∧
      Trace (resolve Sample.fetching.transforms ⟨"git.corp/m", "v1"⟩)
        [⟨Sample.lookup, some ⟨200, Sample.page.toUTF8⟩⟩] (.ok Sample.found) ∧
      ∀ sent answer name, Trace (Sample.found.fetchOver clientTransports) sent answer →
        answer ≠ .error (.unsupportedTransport name) :=
  ⟨by decide, Sample.trace_lookup,
    (resolved_transport_served (by decide) Sample.trace_lookup).2⟩

end ModuleDepot
