import ModuleDepot.Proofs.ResolutionSteps

/-!
When a resolution fails. Only two kinds of steps can stop it: a path step with templates of
its own that has none for the domain, and a selective discovery that asks and is told no
place. The first step that stops it says why, and nothing is asked after it.
-/

namespace ModuleDepot

open Procedure

/-- A step that never stops a resolution: discovery is automatic, and no templates are given. -/
def Transform.Forgiving : Transform → Prop
  | .discover mode _ => mode = .automatic
  | .path given => given = none
  | _ => True

theorem Transform.Forgiving.not_stopped {t : Transform} {r : FetchRequest} {asked : List Asked}
    {e : OriginError} (forgiving : t.Forgiving) : ¬ t.Stopped r asked e := by
  intro stopped
  cases stopped with
  | noTemplate => cases forgiving
  | undiscovered => cases forgiving

/-- With the same answers, a step that is passed is not one that stops. -/
theorem Transform.Passed.not_stopped {t : Transform} {r next : FetchRequest} {asked : List Asked}
    {e : OriginError} (passed : t.Passed r asked next) : ¬ t.Stopped r asked e := by
  intro stopped
  cases trace_unique (trace_apply_ok_iff.mpr passed) (trace_apply_error_iff.mpr stopped)

section

variable {steps : List Transform} {c : Coordinate} {asked : List Asked} {e : OriginError}

/-- A failed resolution went as far as the first step that stopped it. -/
theorem trace_resolve_error_iff : Trace (resolve steps c) asked (.error e) ↔
    ∃ legs mid t rest own, Walk (.ofCoordinate c) legs mid ∧ t.Stopped mid own e ∧
      steps = legs.map Leg.step ++ t :: rest ∧ asked = legs.flatMap Leg.asked ++ own ∧
      ∀ leg ∈ legs, ∀ early, ¬ leg.step.Stopped leg.found leg.asked early := by
  refine trace_follow_error_iff.trans ⟨?_, ?_⟩
  · rintro ⟨legs, mid, t, rest, own, walk, stopped, split, sent⟩
    exact ⟨legs, mid, t, rest, own, walk, stopped, split, sent,
      fun leg member early => (passed_of_mem walk member).not_stopped⟩
  · rintro ⟨legs, mid, t, rest, own, walk, stopped, split, sent, -⟩
    exact ⟨legs, mid, t, rest, own, walk, stopped, split, sent⟩

theorem resolves_of_forgiving (forgiving : ∀ t ∈ steps, t.Forgiving)
    {outcome : Except OriginError FetchRequest} (trace : Trace (resolve steps c) asked outcome) :
    ∃ r, outcome = .ok r := by
  cases outcome with
  | ok r => exact ⟨r, rfl⟩
  | error e =>
      obtain ⟨legs, mid, t, rest, own, -, stopped, split, -⟩ := trace_follow_error_iff.mp trace
      have member : t ∈ steps := by simp [split]
      exact absurd stopped (forgiving t member).not_stopped

/-- An automatic discovery that fails leaves the request as it was. -/
theorem trace_automatic_iff {r : FetchRequest} {domains : List String}
    {outcome : Except OriginError FetchRequest} (told : Trace r.discover asked (.error e)) :
    Trace ((Transform.discover .automatic domains).apply r) asked outcome ↔ outcome = .ok r := by
  have passes : Trace ((Transform.discover .automatic domains).apply r) asked (.ok r) :=
    trace_apply_ok_iff.mpr (.forgiven told)
  constructor
  · intro trace
    exact trace_unique trace passes
  · rintro rfl
    exact passes

/-- A selective discovery lets the requests for other domains through. -/
theorem apply_selective_of_foreign {r : FetchRequest} {domains : List String}
    (foreign : r.domain ∉ domains) (unknown : r.domain ∉ knownDomains) :
    (Transform.discover .selective domains).apply r = pure (.ok r) := by
  have silent : DiscoveryMode.selective.asks domains r.domain = false := by
    rw [← Bool.not_eq_true, asks_selective_iff]
    exact not_or.mpr ⟨foreign, unknown⟩
  dsimp only [Transform.apply]
  rw [silent]
  rfl

end

/-- A resolution fails exactly if some step stops it after the steps before it were passed; it
fails with that step's error, and asks nothing more. Every network brings a resolution to an end in
one of these ways, so steps that are all forgiving never fail. -/
theorem resolution_fails_iff (steps : List Transform) (c : Coordinate) :
    (∀ asked e, Trace (resolve steps c) asked (.error e) ↔
      ∃ legs mid t rest own, Walk (.ofCoordinate c) legs mid ∧ t.Stopped mid own e ∧
        steps = legs.map Leg.step ++ t :: rest ∧ asked = legs.flatMap Leg.asked ++ own ∧
        ∀ leg ∈ legs, ∀ early, ¬ leg.step.Stopped leg.found leg.asked early) ∧
    (∀ {σ : Type} (network : Http.Request → σ → Option Http.Response × σ) (state : σ),
      (∃ asked, Trace (resolve steps c) asked (run network (resolve steps c) state).1) ∧
      ((∀ t ∈ steps, t.Forgiving) →
        ∃ r, (run network (resolve steps c) state).1 = .ok r)) ∧
    (∀ domains r asked e outcome, Trace r.discover asked (.error e) →
      (Trace ((Transform.discover .automatic domains).apply r) asked outcome ↔
        outcome = .ok r)) ∧
    ∀ domains r, r.domain ∉ domains → r.domain ∉ knownDomains →
      (Transform.discover .selective domains).apply r = pure (.ok r) := by
  refine ⟨fun asked e => trace_resolve_error_iff, fun network state => ?_,
    fun domains r asked e outcome => trace_automatic_iff,
    fun domains r => apply_selective_of_foreign⟩
  obtain ⟨asked, trace⟩ := trace_run network (resolve steps c) state
  exact ⟨⟨asked, trace⟩, fun forgiving => resolves_of_forgiving forgiving trace⟩

end ModuleDepot
