import ModuleDepot.Origin.Resolver
import ModuleDepot.Proofs.ProcedureTurns

/-!
How a resolution may go. A step is passed or it stops the resolution, and in each of these
ways something may have been asked of the network. A resolution is a walk over the steps
that were passed, and if it fails, the step that stopped it. Nothing is assumed of the
answers.
-/

namespace ModuleDepot

open Procedure

/-- What was asked of the network, and the answer. -/
abbrev Asked := Event Http.Request fun _ => Option Http.Response

/-- The path that a path step sets. Without a template it is empty. -/
def pathFor (given : Option Texts) (domain : String) (segments : List String)
    (version : String) : String :=
  match templateFor? given domain with
  | some template => expandTemplate template segments version
  | none => ""

namespace Transform

/-- The ways to pass a step, from the request that it finds to the request that it leaves. -/
inductive Passed : Transform → FetchRequest → List Asked → FetchRequest → Prop
  | significant {t : Transform} (r : FetchRequest) : t.isPolicySignificant = true →
      Passed t r [] (t.policy r)
  | shaped {given : Option Texts} {r : FetchRequest} :
      given = none ∨ (templateFor? given r.domain).isSome = true →
      Passed (.path given) r [] { r with path := pathFor given r.domain r.segments r.version }
  | unasked {mode : DiscoveryMode} {domains : List String} {r : FetchRequest} :
      mode.asks domains r.domain = false → Passed (.discover mode domains) r [] r
  | moved {mode : DiscoveryMode} {domains : List String} {r next : FetchRequest}
      {asked : List Asked} : mode.asks domains r.domain = true →
      Trace r.discover asked (.ok next) → Passed (.discover mode domains) r asked next
  | forgiven {domains : List String} {r : FetchRequest} {asked : List Asked} {e : OriginError} :
      Trace r.discover asked (.error e) → Passed (.discover .automatic domains) r asked r

/-- The ways in which a step stops a resolution. -/
inductive Stopped : Transform → FetchRequest → List Asked → OriginError → Prop
  | noTemplate {given : Texts} {r : FetchRequest} : given.lookup r.domain = none →
      standardTemplates.lookup r.domain = none →
      Stopped (.path (some given)) r [] (.noTemplate r.domain)
  | undiscovered {domains : List String} {r : FetchRequest} {asked : List Asked}
      {e : OriginError} : r.domain ∈ domains ∨ r.domain ∈ knownDomains →
      Trace r.discover asked (.error e) → Stopped (.discover .selective domains) r asked e

end Transform

/-! ## One step -/

section

variable {t : Transform} {r next : FetchRequest} {asked : List Asked} {e : OriginError}

theorem asks_selective_iff (domains : List String) (domain : String) :
    DiscoveryMode.selective.asks domains domain = true ↔
      domain ∈ domains ∨ domain ∈ knownDomains := by
  simp [DiscoveryMode.asks]

theorem templateFor?_some_eq_none_iff (given : Texts) (domain : String) :
    templateFor? (some given) domain = none ↔
      given.lookup domain = none ∧ standardTemplates.lookup domain = none := by
  simp [templateFor?]

theorem shape?_eq (given : Option Texts) (r : FetchRequest) :
    r.shape? given =
      if given = none ∨ (templateFor? given r.domain).isSome = true then
        some { r with path := pathFor given r.domain r.segments r.version }
      else none := by
  unfold FetchRequest.shape? pathFor
  cases templateFor? given r.domain <;> cases given <;> simp

theorem Transform.apply_path (given : Option Texts) (r : FetchRequest) :
    (Transform.path given).apply r =
      if given = none ∨ (templateFor? given r.domain).isSome = true then
        pure (.ok { r with path := pathFor given r.domain r.segments r.version })
      else pure (.error (.noTemplate r.domain)) := by
  dsimp only [Transform.apply]
  rw [shape?_eq]
  by_cases able : given = none ∨ (templateFor? given r.domain).isSome = true
  · rw [if_pos able, if_pos able]
  · rw [if_neg able, if_neg able]

/-- A discovery that succeeds moves the request to the place that some page names. -/
theorem FetchRequest.moved_of_trace (trace : Trace r.discover asked (.ok next)) :
    ∃ page place, Page.place page = .ok place ∧ next = r.moveTo place := by
  obtain ⟨_, sent, _, _, following, rfl⟩ := trace_bind trace
  cases sent with
  | error e => cases following
  | ok response =>
      dsimp only at following
      split at following
      · cases following
      · split at following
        · cases following
        · next place told =>
            cases following
            exact ⟨_, place, told, rfl⟩

/-- What a step that asks makes of the outcome of its discovery. -/
theorem trace_discover_iff {mode : DiscoveryMode} {domains : List String}
    {outcome : Except OriginError FetchRequest} (asks : mode.asks domains r.domain = true) :
    Trace ((Transform.discover mode domains).apply r) asked outcome ↔
      ∃ found, Trace r.discover asked found ∧
        outcome = match found, mode with
          | .ok next, _ => .ok next
          | .error e, .selective => .error e
          | .error _, .automatic => .ok r := by
  dsimp only [Transform.apply]
  rw [asks]
  constructor
  · intro trace
    obtain ⟨first, found, second, own, following, rfl⟩ := trace_bind trace
    refine ⟨found, ?_, ?_⟩ <;> rcases found with e | next <;> cases mode <;> cases following
    all_goals first | rfl | simpa using own
  · rintro ⟨found, own, rfl⟩
    rw [← List.append_nil asked]
    refine Trace.bind own ?_
    rcases found with e | next <;> cases mode <;> exact Trace.done _

/-- A step is passed in one of these ways only. -/
theorem trace_apply_ok_iff : Trace (t.apply r) asked (.ok next) ↔ t.Passed r asked next := by
  constructor
  · intro trace
    cases t with
    | redirect | headers | transport =>
        cases trace
        exact .significant r rfl
    | path given =>
        rw [Transform.apply_path] at trace
        split at trace
        · next able =>
            cases trace
            exact .shaped able
        · cases trace
    | discover mode domains =>
        cases asks : mode.asks domains r.domain with
        | false =>
            dsimp only [Transform.apply] at trace
            rw [asks] at trace
            cases trace
            exact .unasked asks
        | true =>
            obtain ⟨found, own, same⟩ := (trace_discover_iff asks).mp trace
            rcases found with e | place
            · cases mode <;> cases same
              exact .forgiven own
            · cases same
              exact .moved asks own
  · intro passed
    cases passed with
    | significant _ known =>
        cases t with
        | redirect | headers | transport => exact Trace.done _
        | path given => cases known
        | discover mode domains => cases known
    | shaped able =>
        rw [Transform.apply_path, if_pos able]
        exact Trace.done _
    | unasked asks =>
        dsimp only [Transform.apply]
        rw [asks]
        exact Trace.done _
    | moved asks own => exact (trace_discover_iff asks).mpr ⟨_, own, rfl⟩
    | forgiven own => exact (trace_discover_iff rfl).mpr ⟨_, own, rfl⟩

/-- A step stops a resolution in one of these ways only. -/
theorem trace_apply_error_iff : Trace (t.apply r) asked (.error e) ↔ t.Stopped r asked e := by
  constructor
  · intro trace
    cases t with
    | redirect | headers | transport => cases trace
    | path given =>
        rw [Transform.apply_path] at trace
        split at trace
        · cases trace
        · next unable =>
            cases trace
            cases given with
            | none => simp at unable
            | some given =>
                obtain ⟨custom, standard⟩ :=
                  (templateFor?_some_eq_none_iff given r.domain).mp (by simpa using unable)
                exact .noTemplate custom standard
    | discover mode domains =>
        cases asks : mode.asks domains r.domain with
        | false =>
            dsimp only [Transform.apply] at trace
            rw [asks] at trace
            cases trace
        | true =>
            obtain ⟨found, own, same⟩ := (trace_discover_iff asks).mp trace
            rcases found with e | place
            · cases mode <;> cases same
              exact .undiscovered ((asks_selective_iff domains r.domain).mp asks) own
            · cases same
  · intro stopped
    cases stopped with
    | @noTemplate given r custom standard =>
        have none := (templateFor?_some_eq_none_iff given r.domain).mpr ⟨custom, standard⟩
        rw [Transform.apply_path, if_neg (by simp [none])]
        exact Trace.done _
    | @undiscovered domains r asked e listed own =>
        exact (trace_discover_iff ((asks_selective_iff domains r.domain).mpr listed)).mpr
          ⟨_, own, rfl⟩

end

/-! ## Many steps -/

/-- A step that was passed. -/
structure Leg where
  step : Transform
  found : FetchRequest
  asked : List Asked
  left : FetchRequest

/-- A walk over steps that are passed one after another. -/
inductive Walk : FetchRequest → List Leg → FetchRequest → Prop
  | stay (r : FetchRequest) : Walk r [] r
  | go {t : Transform} {r next out : FetchRequest} {asked : List Asked} {legs : List Leg} :
      t.Passed r asked next → Walk next legs out → Walk r (⟨t, r, asked, next⟩ :: legs) out

section

variable {steps : List Transform} {r out : FetchRequest} {asked : List Asked} {e : OriginError}
  {legs : List Leg}

theorem walk_append {first second : List Leg} :
    Walk r (first ++ second) out ↔ ∃ mid, Walk r first mid ∧ Walk mid second out := by
  constructor
  · intro walk
    induction first generalizing r with
    | nil => exact ⟨r, .stay r, walk⟩
    | cons leg first ih =>
        cases walk with
        | go passed rest =>
            obtain ⟨mid, before, after⟩ := ih rest
            exact ⟨mid, .go passed before, after⟩
  · rintro ⟨mid, before, after⟩
    induction before with
    | stay => exact after
    | go passed _ ih => exact .go passed (ih after)

/-- The request that a leg finds is the one that the legs before it leave. -/
theorem walk_split {before after : List Leg} {leg : Leg} :
    Walk r (before ++ leg :: after) out ↔ Walk r before leg.found ∧
      leg.step.Passed leg.found leg.asked leg.left ∧ Walk leg.left after out := by
  rw [walk_append]
  constructor
  · rintro ⟨mid, first, second⟩
    cases second with
    | go passed rest => exact ⟨first, passed, rest⟩
  · rintro ⟨first, passed, rest⟩
    exact ⟨leg.found, first, .go passed rest⟩

theorem passed_of_mem {leg : Leg} (walk : Walk r legs out) (member : leg ∈ legs) :
    leg.step.Passed leg.found leg.asked leg.left := by
  obtain ⟨before, after, rfl⟩ := List.append_of_mem member
  exact (walk_split.mp walk).2.1

/-- A resolution that succeeds passes every step. -/
theorem trace_follow_ok_iff : Trace (FetchRequest.follow steps r) asked (.ok out) ↔
    ∃ legs, Walk r legs out ∧ legs.map Leg.step = steps ∧ legs.flatMap Leg.asked = asked := by
  constructor
  · intro trace
    induction steps generalizing r asked with
    | nil =>
        cases trace
        exact ⟨[], .stay _, rfl, rfl⟩
    | cons t rest ih =>
        obtain ⟨own, outcome, others, onStep, following, rfl⟩ := trace_bind trace
        cases outcome with
        | error e => cases following
        | ok next =>
            obtain ⟨legs, walk, rfl, rfl⟩ := ih following
            exact ⟨⟨t, r, own, next⟩ :: legs, .go (trace_apply_ok_iff.mp onStep) walk, rfl, rfl⟩
  · rintro ⟨legs, walk, rfl, rfl⟩
    induction walk with
    | stay r => exact Trace.done _
    | go passed _ ih => exact Trace.bind (trace_apply_ok_iff.mpr passed) ih

/-- A resolution that fails passes the steps before some step, and that step stops it. -/
theorem trace_follow_error_iff : Trace (FetchRequest.follow steps r) asked (.error e) ↔
    ∃ legs mid t rest own, Walk r legs mid ∧ t.Stopped mid own e ∧
      steps = legs.map Leg.step ++ t :: rest ∧ asked = legs.flatMap Leg.asked ++ own := by
  constructor
  · intro trace
    induction steps generalizing r asked with
    | nil => cases trace
    | cons t rest ih =>
        obtain ⟨own, outcome, others, onStep, following, rfl⟩ := trace_bind trace
        cases outcome with
        | error e =>
            cases following
            exact ⟨[], r, t, rest, own, .stay r, trace_apply_error_iff.mp onStep, rfl,
              List.append_nil own⟩
        | ok next =>
            obtain ⟨legs, mid, u, after, last, walk, stopped, rfl, rfl⟩ := ih following
            exact ⟨⟨t, r, own, next⟩ :: legs, mid, u, after, last,
              .go (trace_apply_ok_iff.mp onStep) walk, stopped, rfl,
              (List.append_assoc own _ last).symm⟩
  · rintro ⟨legs, mid, t, rest, own, walk, stopped, rfl, rfl⟩
    induction walk with
    | stay r =>
        have first : Trace (FetchRequest.follow (t :: rest) r) (own ++ []) (.error e) :=
          Trace.bind (trace_apply_error_iff.mpr stopped) (Trace.done _)
        rwa [List.append_nil] at first
    | go passed _ ih =>
        rw [List.flatMap_cons, List.append_assoc]
        exact Trace.bind (trace_apply_ok_iff.mpr passed) (ih stopped)

end

end ModuleDepot
