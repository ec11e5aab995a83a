import ModuleDepot.Proofs.ResolutionSteps
import ModuleDepot.Proofs.ServedTransports

/-!
Which step a field of a resolved request comes from. The version is the coordinate's, and
headers stay once they are there. The path is owned by the last step that set it or, by
moving the request, took it away, and what other steps do later makes no difference to it.
-/

namespace ModuleDepot

open Procedure

/-! ## Headers -/

theorem lookup_cons_eq {α : Type} (name : String) (entry : String × α)
    (rest : List (String × α)) :
    (entry :: rest).lookup name = if name = entry.1 then some entry.2 else rest.lookup name := by
  rw [List.lookup_cons]
  by_cases same : name = entry.1
  · simp [same]
  · rw [if_neg same, beq_eq_false_iff_ne.mpr same]

theorem lookup_insertEntry {α : Type} (name other : String) (value : α)
    (entries : List (String × α)) :
    (Json.insertEntry name value entries).lookup other =
      if other = name then some value else entries.lookup other := by
  induction entries with
  | nil => rw [Json.insertEntry, lookup_cons_eq]
  | cons entry rest ih =>
      obtain ⟨first, old⟩ := entry
      unfold Json.insertEntry
      cases order : compare name first with
      | lt => exact lookup_cons_eq other (name, value) _
      | eq =>
          obtain rfl := Std.LawfulEqOrd.eq_of_compare order
          dsimp only
          rw [lookup_cons_eq, lookup_cons_eq]
          split <;> rfl
      | gt =>
          have apart : first ≠ name := by
            rintro rfl
            simp at order
          dsimp only
          rw [lookup_cons_eq, lookup_cons_eq, ih]
          by_cases here : other = first
          · rw [if_pos here, if_neg (here ▸ apart), if_pos here]
          · rw [if_neg here, if_neg here]

namespace FetchRequest

/-- A header is only added where there is none of its name. -/
theorem lookup_addHeader (headers : Texts) (entry : String × String) (name : String) :
    (addHeader headers entry).lookup name =
      (headers.lookup name).or (if name = entry.1 then some entry.2 else none) := by
  unfold addHeader
  split
  · next known =>
      obtain ⟨value, present⟩ := Option.isSome_iff_exists.mp known
      by_cases same : name = entry.1
      · rw [same, present]
        rfl
      · simp [same]
  · next unknown =>
      have absent : headers.lookup entry.1 = none := by
        rwa [Bool.not_eq_true, Option.isSome_eq_false_iff, Option.isNone_iff_eq_none] at unknown
      rw [lookup_insertEntry]
      by_cases same : name = entry.1
      · simp [same, absent]
      · simp [same]

theorem lookup_foldl_addHeader {entries headers : Texts} {name value : String}
    (present : headers.lookup name = some value) :
    (entries.foldl addHeader headers).lookup name = some value := by
  induction entries generalizing headers with
  | nil => exact present
  | cons entry rest ih =>
      apply ih
      rw [lookup_addHeader, present]
      rfl

end FetchRequest

/-! ## What one step does to a field -/

namespace Transform

variable {t : Transform} {r next : FetchRequest} {asked : List Asked}

theorem Passed.version_eq (passed : t.Passed r asked next) : next.version = r.version := by
  cases passed with
  | significant =>
      cases t with
      | redirect | headers | transport =>
          dsimp only [policy]
          split <;> rfl
      | path | discover => rfl
  | shaped | unasked | forgiven => rfl
  | moved _ trace =>
      obtain ⟨_, place, -, rfl⟩ := FetchRequest.moved_of_trace trace
      rfl

/-- No step overwrites a header or takes it away. -/
theorem Passed.keeps_header {name value : String} (passed : t.Passed r asked next)
    (present : r.headers.lookup name = some value) : next.headers.lookup name = some value := by
  cases passed with
  | significant =>
      cases t with
      | headers domain entries =>
          dsimp only [policy]
          split
          · exact FetchRequest.lookup_foldl_addHeader present
          · exact present
      | redirect | transport =>
          dsimp only [policy]
          split <;> exact present
      | path | discover => exact present
  | shaped | unasked | forgiven => exact present
  | moved _ trace =>
      obtain ⟨_, place, -, rfl⟩ := FetchRequest.moved_of_trace trace
      exact present

end Transform

namespace Leg

/-- The step sets the path. -/
def Shapes (leg : Leg) : Prop := ∃ given, leg.step = .path given

/-- The step asked where the module is kept, and moved the request to the place that it was
told. -/
def Redirects (leg : Leg) : Prop :=
  ∃ mode domains, leg.step = .discover mode domains ∧
    mode.asks domains leg.found.domain = true ∧
    Trace leg.found.discover leg.asked (.ok leg.left)

/-- The step leaves a path of its own. -/
def OwnsPath (leg : Leg) : Prop := leg.Shapes ∨ leg.Redirects

theorem path_of_redirects {leg : Leg} (redirects : leg.Redirects) : leg.left.path = "" := by
  obtain ⟨_, _, _, _, trace⟩ := redirects
  obtain ⟨_, place, -, moved⟩ := FetchRequest.moved_of_trace trace
  rw [moved]
  rfl

theorem not_shapes_of_redirects {leg : Leg} (redirects : leg.Redirects) : ¬ leg.Shapes := by
  rintro ⟨given, shape⟩
  obtain ⟨mode, domains, discovers, -, -⟩ := redirects
  rw [shape] at discovers
  cases discovers

theorem path_of_shapes {leg : Leg} {given : Option Texts}
    (passed : leg.step.Passed leg.found leg.asked leg.left) (shape : leg.step = .path given) :
    leg.left.path =
      pathFor given leg.found.domain leg.found.segments leg.found.version := by
  obtain ⟨step, found, asked, left⟩ := leg
  dsimp only at shape passed ⊢
  subst shape
  cases passed with
  | significant _ known => cases known
  | shaped => rfl

theorem path_of_not_owns {leg : Leg} (passed : leg.step.Passed leg.found leg.asked leg.left)
    (other : ¬ leg.OwnsPath) : leg.left.path = leg.found.path := by
  obtain ⟨step, found, asked, left⟩ := leg
  dsimp only at passed ⊢
  cases passed with
  | significant =>
      cases step with
      | redirect | headers | transport =>
          dsimp only [Transform.policy]
          split <;> rfl
      | path | discover => rfl
  | shaped => exact absurd (Or.inl ⟨_, rfl⟩) other
  | unasked | forgiven => rfl
  | moved asks trace => exact absurd (Or.inr ⟨_, _, rfl, asks, trace⟩) other

end Leg

/-! ## What a whole walk leaves -/

/-- Of two places in one list, one comes first. -/
theorem places_ordered {α : Type} {x y : α} {before after front back : List α}
    (same : before ++ x :: after = front ++ y :: back) : y = x ∨ y ∈ after ∨ x ∈ back := by
  rcases List.append_eq_append_iff.mp same with ⟨between, rfl, rest⟩ | ⟨between, rfl, rest⟩
  · cases between with
    | nil => exact Or.inl (List.cons.inj rest).1.symm
    | cons z between =>
        obtain ⟨-, rfl⟩ := List.cons.inj rest
        exact Or.inr (Or.inl (List.mem_append_right between List.mem_cons_self))
  · cases between with
    | nil => exact Or.inl (List.cons.inj rest).1
    | cons z between =>
        obtain ⟨-, rfl⟩ := List.cons.inj rest
        exact Or.inr (Or.inr (List.mem_append_right between List.mem_cons_self))

section

variable {r out : FetchRequest} {legs : List Leg}

theorem version_of_walk (walk : Walk r legs out) : out.version = r.version := by
  induction walk with
  | stay => rfl
  | go passed _ ih => exact ih.trans passed.version_eq

/-- The path is as it was, or it comes from the last step that left one of its own. -/
theorem path_of_walk (walk : Walk r legs out) :
    (out.path = r.path ∧ ∀ leg ∈ legs, ¬ leg.OwnsPath) ∨
      ∃ before leg after, legs = before ++ leg :: after ∧ leg.OwnsPath ∧
        (∀ later ∈ after, ¬ later.OwnsPath) ∧ out.path = leg.left.path := by
  induction walk with
  | stay => exact Or.inl ⟨rfl, by simp⟩
  | @go t r next out asked legs passed _ ih =>
      rcases ih with ⟨kept, none⟩ | ⟨before, last, after, rfl, owns, none, set⟩
      · by_cases owns : Leg.OwnsPath ⟨t, r, asked, next⟩
        · exact Or.inr ⟨[], _, legs, rfl, owns, none, kept⟩
        · refine Or.inl ⟨kept.trans (Leg.path_of_not_owns passed owns), ?_⟩
          exact List.forall_mem_cons.mpr ⟨owns, none⟩
      · exact Or.inr ⟨⟨t, r, asked, next⟩ :: before, last, after, rfl, owns, none, set⟩

end

/-- A resolved request has the coordinate's version, and no step on its way overwrote or dropped a
header. Its path is what the last path step made of domain and segments as they stood there, if no
discovery moved the request after that step, and is empty otherwise; and with an empty path
nothing is sent. -/
theorem resolved_fields {steps : List Transform} {c : Coordinate} {asked : List Asked}
    {r : FetchRequest} (trace : Trace (resolve steps c) asked (.ok r)) :
    (∃ legs, Walk (.ofCoordinate c) legs r ∧ legs.map Leg.step = steps ∧
      legs.flatMap Leg.asked = asked ∧
      (∀ leg ∈ legs, ∀ name value, leg.found.headers.lookup name = some value →
        leg.left.headers.lookup name = some value) ∧
      ((∃ before leg after given, legs = before ++ leg :: after ∧ leg.step = .path given ∧
          (∀ later ∈ after, ¬ later.Shapes ∧ ¬ later.Redirects) ∧
          r.path = pathFor given leg.found.domain leg.found.segments c.version) ∨
        r.path = "" ∧ ∀ before leg after, legs = before ++ leg :: after → leg.Shapes →
          ∃ later ∈ after, later.Redirects)) ∧
    r.version = c.version ∧
    ∀ q : FetchRequest, q.path = "" → q.fetch = pure (.error (.emptyPath q.domain)) := by
  obtain ⟨legs, walk, same, sent⟩ := trace_follow_ok_iff.mp trace
  refine ⟨⟨legs, walk, same, sent, ?_, ?_⟩, version_of_walk walk, fun q empty => if_pos empty⟩
  · intro leg member name value present
    exact (passed_of_mem walk member).keeps_header present
  · rcases path_of_walk walk with ⟨kept, none⟩ | ⟨before, leg, after, rfl, owns, none, set⟩
    · refine Or.inr ⟨kept, fun before leg after split shapes => ?_⟩
      have member : leg ∈ legs := split ▸ List.mem_append_right before List.mem_cons_self
      exact absurd (Or.inl shapes) (none leg member)
    · obtain ⟨first, passed, -⟩ := walk_split.mp walk
      rcases owns with ⟨given, shape⟩ | redirects
      · refine Or.inl ⟨before, leg, after, given, rfl, shape, fun later member => ?_, ?_⟩
        · exact not_or.mp (none later member)
        · rw [set, Leg.path_of_shapes passed shape, version_of_walk first]
          rfl
      · refine Or.inr ⟨set.trans (Leg.path_of_redirects redirects), ?_⟩
        intro front shaper back split shapes
        rcases places_ordered split with rfl | later | earlier
        · exact absurd shapes (Leg.not_shapes_of_redirects redirects)
        · exact absurd (Or.inl shapes) (none shaper later)
        · exact ⟨leg, earlier, redirects⟩

/-! ## A path that is set between two moves -/

namespace Sample

def hostTemplates : Texts := [("h", "ELEM1/VERSION.zip")]

/-- The place is discovered, the path is set for it, and then the request is sent elsewhere. -/
def carried : List Transform :=
  fetching.transforms ++
    [.path (some hostTemplates), .redirect "h" "mirror", .headers "mirror" [("X", "y")]]

def carriedRequest : FetchRequest :=
  ⟨"https", "mirror", ["m"], "v1", "m/v1.zip", [("X", "y")]⟩

/-- The legs that come after the discovery. -/
def carriedLegs : List Leg :=
  let shaped := { found with path := pathFor (some hostTemplates) "h" ["m"] "v1" }
  let sentOn := (Transform.redirect "h" "mirror").policy shaped
  let signed := (Transform.headers "mirror" [("X", "y")]).policy sentOn
  [⟨.path (some hostTemplates), found, [], shaped⟩, ⟨.redirect "h" "mirror", shaped, [], sentOn⟩,
    ⟨.headers "mirror" [("X", "y")], sentOn, [], signed⟩]

theorem walk_carried : Walk found carriedLegs carriedRequest := by
  have ended : (carriedLegs.map Leg.left).getLastD found = carriedRequest := by decide +kernel
  have known : (templateFor? (some hostTemplates) found.domain).isSome = true := by
    decide +kernel
  rw [← ended]
  exact .go (.shaped (Or.inr known))
    (.go (.significant _ rfl) (.go (.significant _ rfl) (.stay _)))

theorem trace_carried :
    Trace (resolve carried ⟨"git.corp/m", "v1"⟩) [⟨lookup, some ⟨200, page.toUTF8⟩⟩]
      (.ok carriedRequest) := by
  obtain ⟨legs, walk, same, sent⟩ := trace_follow_ok_iff.mp trace_lookup
  refine trace_follow_ok_iff.mpr
    ⟨legs ++ carriedLegs, walk_append.mpr ⟨found, walk, walk_carried⟩, ?_, ?_⟩
  · rw [List.map_append, same]
    rfl
  · rw [List.flatMap_append, sent]
    rfl

end Sample

/-- The path is the one that was set for the discovered host, although the request was sent on to
another one. -/
theorem resolved_fields_carried :
    Trace (resolve Sample.carried ⟨"git.corp/m", "v1"⟩)
        [⟨Sample.lookup, some ⟨200, Sample.page.toUTF8⟩⟩] (.ok Sample.carriedRequest) ∧
      ∃ (leg : Leg) (given : Option Texts), leg.step = .path given ∧ leg.step ∈ Sample.carried ∧
        Sample.carriedRequest.path = pathFor given leg.found.domain leg.found.segments "v1" := by
  obtain ⟨⟨legs, -, same, -, -, path⟩, -, -⟩ := resolved_fields Sample.trace_carried
  refine ⟨Sample.trace_carried, ?_⟩
  rcases path with ⟨before, leg, after, given, rfl, shape, -, set⟩ | ⟨empty, -⟩
  · refine ⟨leg, given, shape, ?_, set⟩
    rw [← same]
    exact List.mem_map_of_mem (List.mem_append_right before List.mem_cons_self)
  · exact absurd empty (by decide)

end ModuleDepot
