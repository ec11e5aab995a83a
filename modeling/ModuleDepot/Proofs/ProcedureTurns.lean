import ModuleDepot.Proofs.ProcedureRuns

/-!
Procedures that take turns at one state, call by call and in any order. What each
of them does by itself is its trace, which knows nothing of the others. The calls
of all of them, in the order in which they were made, hold every trace in its own
order, and decide what the state is in the end.
-/

namespace ModuleDepot.Procedure

variable {Call : Type} {Answer : Call → Type} {α β σ : Type}

/-- A call and the answer it got. -/
abbrev Event (Call : Type) (Answer : Call → Type) := (c : Call) × Answer c

/-- The calls of a whole run of one procedure, whatever happens between them. -/
inductive Trace : Procedure Call Answer α → List (Event Call Answer) → α → Prop
  | done (a : α) : Trace (.done a) [] a
  | ask {c : Call} {next : Answer c → Procedure Call Answer α} {answer : Answer c}
      {events : List (Event Call Answer)} {a : α} :
      Trace (next answer) events a → Trace (.ask c next) (⟨c, answer⟩ :: events) a

/-- The state that calls leave, one after another. -/
inductive Passes (service : Service Call Answer σ) : List (Event Call Answer) → σ → σ → Prop
  | stay (s : σ) : Passes service [] s s
  | call {c : Call} {answer : Answer c} {events : List (Event Call Answer)} {s t u : σ} :
      service c s answer t → Passes service events t u →
      Passes service (⟨c, answer⟩ :: events) s u

/-- Procedures take turns until all of them are done. -/
inductive Interleaved (service : Service Call Answer σ) :
    List (Procedure Call Answer α) → σ → List (Event Call Answer) → σ → Prop
  | finished (values : List α) (s : σ) : Interleaved service (values.map .done) s [] s
  | turn {c : Call} {next : Answer c → Procedure Call Answer α} {answer : Answer c}
      (before after : List (Procedure Call Answer α)) {events : List (Event Call Answer)}
      {s t u : σ} : service c s answer t →
      Interleaved service (before ++ next answer :: after) t events u →
      Interleaved service (before ++ .ask c next :: after) s (⟨c, answer⟩ :: events) u

/-! ## Traces -/

theorem trace_pure {a b : α} {events : List (Event Call Answer)}
    (trace : Trace (pure a) events b) : events = [] := by
  cases trace
  rfl

theorem trace_call {c : Call} {answer : Answer c} {events : List (Event Call Answer)}
    (trace : Trace (call c) events answer) : events = [⟨c, answer⟩] := by
  cases trace with
  | ask rest =>
      cases rest
      rfl

/-- The trace of one procedure after another falls into their traces. -/
theorem trace_bind {p : Procedure Call Answer α} {f : α → Procedure Call Answer β}
    {events : List (Event Call Answer)} {b : β} (trace : Trace (p >>= f) events b) :
    ∃ first a second, Trace p first a ∧ Trace (f a) second b ∧ events = first ++ second := by
  change Trace (andThen p f) events b at trace
  induction p generalizing events with
  | done a => exact ⟨[], a, events, Trace.done a, trace, rfl⟩
  | ask c next ih =>
      cases trace with
      | @ask _ _ answer rest _ later =>
          obtain ⟨first, a, second, own, following, rfl⟩ := ih answer later
          exact ⟨⟨c, answer⟩ :: first, a, second, Trace.ask own, following, rfl⟩

theorem trace_call_bind {c : Call} {f : Answer c → Procedure Call Answer β}
    {events : List (Event Call Answer)} {b : β} (trace : Trace (call c >>= f) events b) :
    ∃ answer rest, Trace (f answer) rest b ∧ events = ⟨c, answer⟩ :: rest := by
  obtain ⟨first, answer, rest, own, following, rfl⟩ := trace_bind trace
  rw [trace_call own]
  exact ⟨answer, rest, following, rfl⟩

/-- The traces of one procedure and of what follows it make up the trace of both. -/
theorem Trace.bind {p : Procedure Call Answer α} {f : α → Procedure Call Answer β}
    {first second : List (Event Call Answer)} {a : α} {b : β} (own : Trace p first a)
    (following : Trace (f a) second b) : Trace (p >>= f) (first ++ second) b := by
  change Trace (andThen p f) (first ++ second) b
  induction own with
  | done a => exact following
  | ask _ ih => exact Trace.ask (ih following)

/-- The answers decide how a procedure goes. -/
theorem trace_unique {p : Procedure Call Answer α} {events : List (Event Call Answer)} {a b : α}
    (first : Trace p events a) (second : Trace p events b) : a = b := by
  induction first with
  | done a =>
      cases second
      rfl
  | ask _ ih =>
      cases second with
      | ask rest => exact ih rest

/-- Whoever answers the calls, a procedure is run to its end. -/
theorem trace_run (handle : (c : Call) → σ → Answer c × σ) (p : Procedure Call Answer α) (s : σ) :
    ∃ events, Trace p events (run handle p s).1 := by
  induction p generalizing s with
  | done a => exact ⟨[], Trace.done a⟩
  | ask c next ih =>
      obtain ⟨events, rest⟩ := ih (handle c s).1 (handle c s).2
      exact ⟨⟨c, (handle c s).1⟩ :: events, Trace.ask rest⟩

theorem trace_only {admitted : Call → Prop} {p : Procedure Call Answer α}
    {events : List (Event Call Answer)} {a : α} (only : Only admitted p)
    (trace : Trace p events a) : ∀ x ∈ events, admitted x.1 := by
  induction trace with
  | done a => simp
  | ask _ ih =>
      intro x member
      rcases List.mem_cons.mp member with rfl | later
      · exact only.1
      · exact ih (only.2 _) x later

theorem filter_of_only {kind : Call → Bool} {p : Procedure Call Answer α}
    {events : List (Event Call Answer)} {a : α} (only : Only (fun c => kind c = false) p)
    (trace : Trace p events a) : events.filter (fun x => kind x.1) = [] := by
  rw [List.filter_eq_nil_iff]
  intro x member
  simp [trace_only only trace x member]

/-! ## Taking turns -/

variable {service : Service Call Answer σ} {threads : List (Procedure Call Answer α)}
  {events : List (Event Call Answer)} {s u : σ}

theorem passes_of_interleaved (run : Interleaved service threads s events u) :
    Passes service events s u := by
  induction run with
  | finished values s => exact Passes.stay s
  | turn before after served _ ih => exact Passes.call served ih

/-- Every procedure runs as it does by itself, its calls in their own order. -/
theorem trace_of_interleaved (run : Interleaved service threads s events u) :
    ∀ p ∈ threads, ∃ own a, Trace p own a ∧ own.Sublist events := by
  induction run with
  | finished values s =>
      intro p member
      obtain ⟨a, _, rfl⟩ := List.mem_map.mp member
      exact ⟨[], a, Trace.done a, List.nil_sublist []⟩
  | turn before after served _ ih =>
      intro p member
      -- Only the procedure whose turn it is has this call in its trace.
      rcases List.mem_append.mp member with earlier | here
      · obtain ⟨own, a, trace, part⟩ := ih p (List.mem_append_left _ earlier)
        exact ⟨own, a, trace, part.cons _⟩
      rcases List.mem_cons.mp here with rfl | later
      · obtain ⟨own, a, trace, part⟩ := ih _ (List.mem_append_right before List.mem_cons_self)
        exact ⟨_, a, Trace.ask trace, part.cons_cons _⟩
      · obtain ⟨own, a, trace, part⟩ :=
          ih p (List.mem_append_right before (List.mem_cons_of_mem _ later))
        exact ⟨own, a, trace, part.cons _⟩

/-- Every call belongs to the trace of one of the procedures. -/
theorem owner_of_interleaved (run : Interleaved service threads s events u) :
    ∀ x ∈ events, ∃ p ∈ threads, ∃ own a, Trace p own a ∧ x ∈ own ∧ own.Sublist events := by
  induction run with
  | finished values s => simp
  | @turn c next answer before after events s t u served rest ih =>
      intro x member
      rcases List.mem_cons.mp member with rfl | later
      · obtain ⟨own, a, trace, part⟩ :=
          trace_of_interleaved rest _ (List.mem_append_right before List.mem_cons_self)
        exact ⟨_, List.mem_append_right before List.mem_cons_self, _, a, Trace.ask trace,
          List.mem_cons_self, part.cons_cons _⟩
      obtain ⟨p, among, own, a, trace, present, part⟩ := ih x later
      rcases List.mem_append.mp among with earlier | here
      · exact ⟨p, List.mem_append_left _ earlier, own, a, trace, present, part.cons _⟩
      rcases List.mem_cons.mp here with rfl | beyond
      · exact ⟨_, List.mem_append_right before List.mem_cons_self, _, a, Trace.ask trace,
          List.mem_cons_of_mem _ present, part.cons_cons _⟩
      · exact ⟨p, List.mem_append_right before (List.mem_cons_of_mem _ beyond), own, a, trace,
          present, part.cons _⟩

/-- Calls that only the first procedure makes stand in the order of its trace. -/
theorem filter_of_interleaved {kind : Call → Bool} {first : Procedure Call Answer α}
    {others : List (Procedure Call Answer α)}
    (run : Interleaved service (first :: others) s events u)
    (foreign : ∀ p ∈ others, Only (fun c => kind c = false) p) :
    ∃ own a, Trace first own a ∧
      events.filter (fun x => kind x.1) = own.filter fun x => kind x.1 := by
  generalize same : first :: others = threads at run
  induction run generalizing first others with
  | finished values s =>
      cases values with
      | nil => cases same
      | cons a rest =>
          cases same
          exact ⟨[], a, Trace.done a, rfl⟩
  | @turn c next answer before after events s t u served rest ih =>
      -- The turn is either the first procedure's or that of one that makes no such call.
      cases before with
      | nil =>
          cases same
          obtain ⟨own, a, trace, equal⟩ := ih foreign rfl
          refine ⟨⟨c, answer⟩ :: own, a, Trace.ask trace, ?_⟩
          rw [List.filter_cons, List.filter_cons, equal]
      | cons p earlier =>
          cases same
          have quiet := foreign (.ask c next) (List.mem_append_right earlier List.mem_cons_self)
          have still : ∀ p ∈ earlier ++ next answer :: after, Only (fun c => kind c = false) p := by
            intro p member
            rcases List.mem_append.mp member with before | here
            · exact foreign p (List.mem_append_left _ before)
            rcases List.mem_cons.mp here with rfl | beyond
            · exact quiet.2 answer
            · exact foreign p (List.mem_append_right earlier (List.mem_cons_of_mem _ beyond))
          obtain ⟨own, a, trace, equal⟩ := ih still rfl
          refine ⟨own, a, trace, ?_⟩
          rw [List.filter_cons_of_neg (by simp [quiet.1]), equal]

/-! ## Handlers -/

/-- The service of a handler, which leaves no choice. -/
def handled (handle : (c : Call) → σ → Answer c × σ) : Service Call Answer σ :=
  fun c s answer t => handle c s = (answer, t)

/-- A run makes the calls of one of the procedure's traces, each in the state that the ones
before it have left. -/
theorem trace_of_run (handle : (c : Call) → σ → Answer c × σ) (p : Procedure Call Answer α)
    (s : σ) :
    ∃ events, Trace p events (run handle p s).1 ∧
      Passes (handled handle) events s (run handle p s).2 := by
  induction p generalizing s with
  | done a => exact ⟨[], Trace.done a, Passes.stay s⟩
  | ask c next ih =>
      obtain ⟨events, trace, passes⟩ := ih (handle c s).1 (handle c s).2
      exact ⟨_, Trace.ask trace, Passes.call rfl passes⟩

theorem run_of_trace {handle : (c : Call) → σ → Answer c × σ} {p : Procedure Call Answer α}
    {a : α} (trace : Trace p events a) (passes : Passes (handled handle) events s u) :
    run handle p s = (a, u) := by
  induction trace generalizing s with
  | done a =>
      cases passes
      rfl
  | ask _ ih =>
      cases passes with
      | call served rest =>
          have answered : handle _ s = (_, _) := served
          simp only [run, answered]
          exact ih rest

/-! ## What is left in the end -/

theorem passes_append {before after : List (Event Call Answer)} :
    Passes service (before ++ after) s u ↔
      ∃ t, Passes service before s t ∧ Passes service after t u := by
  constructor
  · intro passes
    induction before generalizing s with
    | nil => exact ⟨s, Passes.stay s, passes⟩
    | cons x before ih =>
        cases passes with
        | call served rest =>
            obtain ⟨t, first, second⟩ := ih rest
            exact ⟨t, Passes.call served first, second⟩
  · rintro ⟨t, first, second⟩
    induction first with
    | stay s => exact second
    | call served _ ih => exact Passes.call served (ih second)

theorem passes_suffix (before : List (Event Call Answer)) {after : List (Event Call Answer)}
    (passes : Passes service (before ++ after) s u) : ∃ t, Passes service after t u := by
  obtain ⟨t, _, rest⟩ := passes_append.mp passes
  exact ⟨t, rest⟩

/-- What a part of the state passes through, where `view` is that part. -/
theorem passes_view {τ : Type} {narrow : Service Call Answer τ} (view : σ → τ)
    (passes : Passes service events s u)
    (each : ∀ x ∈ events, ∀ t v, service x.1 t x.2 v → narrow x.1 (view t) x.2 (view v)) :
    Passes narrow events (view s) (view u) := by
  induction passes with
  | stay s => exact Passes.stay (view s)
  | call served _ ih =>
      have first := each _ List.mem_cons_self _ _ served
      exact Passes.call first (ih fun x later => each x (List.mem_cons_of_mem _ later))

/-- Calls that each leave the state as it is leave it so together. -/
theorem passes_still (passes : Passes service events s u)
    (each : ∀ x ∈ events, ∀ t v, service x.1 t x.2 v → v = t) : u = s := by
  induction passes with
  | stay s => rfl
  | call served _ ih =>
      rw [ih fun x later => each x (List.mem_cons_of_mem _ later)]
      exact each _ List.mem_cons_self _ _ served

/-- Something that some calls bring about, some take away and all others leave alone is there in
the end if it was brought about, or there from the start, and not taken away since. -/
theorem present_iff {present : σ → Prop} {brings takes : Event Call Answer → Prop}
    (passes : Passes service events s u)
    (each : ∀ x ∈ events, ∀ t v, service x.1 t x.2 v →
      (present v ↔ brings x ∨ present t ∧ ¬ takes x)) :
    present u ↔ present s ∧ (∀ x ∈ events, ¬ takes x) ∨
      ∃ before x after, events = before ++ x :: after ∧ brings x ∧ ∀ y ∈ after, ¬ takes y := by
  induction passes with
  | stay s => simp
  | @call c answer events s t u served _ ih =>
      -- After the first call it is there if the call brought it or left it, so the last one that
      -- brought it is either among the later calls or this one.
      have onCall := each _ List.mem_cons_self _ _ served
      have onRest := fun x later => each x (List.mem_cons_of_mem _ later)
      rw [ih onRest, onCall]
      constructor
      · rintro (⟨brought | ⟨before, kept⟩, since⟩ | ⟨before, x, after, rfl, brought, since⟩)
        · exact Or.inr ⟨[], ⟨c, answer⟩, events, rfl, brought, since⟩
        · refine Or.inl ⟨before, ?_⟩
          intro x member
          rcases List.mem_cons.mp member with rfl | later
          · exact kept
          · exact since x later
        · exact Or.inr ⟨⟨c, answer⟩ :: before, x, after, rfl, brought, since⟩
      · rintro (⟨start, never⟩ | ⟨before, x, after, split, brought, since⟩)
        · exact Or.inl ⟨Or.inr ⟨start, never _ List.mem_cons_self⟩,
            fun x later => never x (List.mem_cons_of_mem _ later)⟩
        · cases before with
          | nil =>
              cases split
              exact Or.inl ⟨Or.inl brought, since⟩
          | cons first before =>
              cases split
              exact Or.inr ⟨before, x, after, rfl, brought, since⟩

end ModuleDepot.Procedure
