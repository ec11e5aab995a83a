import ModuleDepot.Procedure

/-!
Runs of procedures whose calls may be answered in more than one way. A service
says which answers a call may get and what state it then leaves. Over a service a
procedure has whole runs, a queue of procedures passes through states, and several
procedures take turns at the same state.
-/

namespace ModuleDepot.Procedure

variable {Call : Type} {Answer : Call → Type} {α β σ : Type}

/-- Which answers a call may get in a state, and which state it then leaves. -/
abbrev Service (Call : Type) (Answer : Call → Type) (σ : Type) :=
  (c : Call) → σ → Answer c → σ → Prop

variable {service : Service Call Answer σ} {inv : σ → Prop} {post : α → σ → Prop}

/-- A whole run, from a state to a value and the state it leaves. -/
inductive Runs (service : Service Call Answer σ) :
    Procedure Call Answer α → σ → α → σ → Prop
  | done (a : α) (s : σ) : Runs service (.done a) s a s
  | ask {c : Call} {next : Answer c → Procedure Call Answer α} {s t u : σ} {answer : Answer c}
      {a : α} : service c s answer t → Runs service (next answer) t a u →
      Runs service (.ask c next) s a u

/-- A state that a queue of procedures passes through. One procedure is taken up after the
other, and each may be left after any of its calls, so that later calls of it never come. -/
inductive Reaches (service : Service Call Answer σ) :
    List (Procedure Call Answer α) → σ → σ → Prop
  | here (queue : List (Procedure Call Answer α)) (s : σ) : Reaches service queue s s
  | call {c : Call} {next : Answer c → Procedure Call Answer α}
      {queue : List (Procedure Call Answer α)} {s t u : σ} {answer : Answer c} :
      service c s answer t → Reaches service (next answer :: queue) t u →
      Reaches service (.ask c next :: queue) s u
  | leave {p : Procedure Call Answer α} {queue : List (Procedure Call Answer α)} {s u : σ} :
      Reaches service queue s u → Reaches service (p :: queue) s u

/-! ## What holds whatever the answers are -/

/-- Whatever the answers, every call leaves the invariant standing, and the end meets `post`. -/
def Holds (service : Service Call Answer σ) (inv : σ → Prop) (post : α → σ → Prop) :
    Procedure Call Answer α → σ → Prop
  | done a, s => post a s
  | ask c next, s => ∀ answer t, service c s answer t →
      inv t ∧ Holds service inv post (next answer) t

theorem holds_bind (p : Procedure Call Answer α) (f : α → Procedure Call Answer β)
    (post : β → σ → Prop) (s : σ) :
    Holds service inv post (p >>= f) s ↔
      Holds service inv (fun a t => Holds service inv post (f a) t) p s := by
  change Holds service inv post (andThen p f) s ↔ _
  induction p generalizing s with
  | done a => rfl
  | ask c next ih => simp only [andThen, Holds, ih]

theorem holds_mono (p : Procedure Call Answer α) (s : σ) {post weaker : α → σ → Prop}
    (implied : ∀ a t, post a t → weaker a t) (holds : Holds service inv post p s) :
    Holds service inv weaker p s := by
  induction p generalizing s with
  | done a => exact implied a s holds
  | ask c next ih =>
      intro answer t served
      obtain ⟨kept, rest⟩ := holds answer t served
      exact ⟨kept, ih answer t rest⟩

/-- A whole run ends as the procedure promises. -/
theorem runs_post {p : Procedure Call Answer α} {s u : σ} {a : α}
    (run : Runs service p s a u) (holds : Holds service inv post p s) : post a u := by
  induction run with
  | done a s => exact holds
  | ask served _ ih => exact ih (holds _ _ served).2

/-- Running a procedure is a whole run of every service that the handler meets, where `view`
is what the service sees of the handler's state. -/
theorem runs_run {τ : Type} {handle : (c : Call) → τ → Answer c × τ} (view : τ → σ)
    (meets : ∀ c t, service c (view t) (handle c t).1 (view (handle c t).2))
    (p : Procedure Call Answer α) (t : τ) :
    Runs service p (view t) (run handle p t).1 (view (run handle p t).2) := by
  induction p generalizing t with
  | done a => exact Runs.done a (view t)
  | ask c next ih => exact Runs.ask (meets c t) (ih (handle c t).1 (handle c t).2)

/-- A queue of procedures that each keep an invariant never leaves it. Of a procedure that was
begun only the calls to come are known, so the head of the queue is kept apart. -/
theorem reaches_keeps {queue : List (Procedure Call Answer α)} {s u : σ}
    (reached : Reaches service queue s u) (start : inv s)
    (head : ∀ p ∈ queue.head?, Holds service inv post p s)
    (later : ∀ p ∈ queue.tail, ∀ t, inv t → Holds service inv post p t) : inv u := by
  induction reached with
  | here queue s => exact start
  | call served _ ih =>
      -- What is left of the head still keeps the invariant, from the state after the call.
      obtain ⟨kept, rest⟩ := head _ rfl _ _ served
      exact ih kept (by rintro p ⟨⟩; exact rest) later
  | @leave p queue s u _ ih =>
      refine ih start (fun p member => ?_) (fun p member => ?_)
      · exact later p (List.mem_of_mem_head? member) s start
      · exact later p (List.mem_of_mem_tail member)

/-! ## Calls that leave the state as it is -/

/-- Every call of the procedure is one of the given ones. -/
def Only (admitted : Call → Prop) : Procedure Call Answer α → Prop
  | done _ => True
  | ask c next => admitted c ∧ ∀ answer, Only admitted (next answer)

@[simp] theorem only_pure (admitted : Call → Prop) (a : α) :
    Only admitted (pure a : Procedure Call Answer α) := trivial

@[simp] theorem only_call (admitted : Call → Prop) (c : Call) :
    Only admitted (call c : Procedure Call Answer (Answer c)) ↔ admitted c := by
  simp [call, Only]

theorem only_bind {admitted : Call → Prop} {p : Procedure Call Answer α}
    {f : α → Procedure Call Answer β} (first : Only admitted p)
    (second : ∀ a, Only admitted (f a)) : Only admitted (p >>= f) := by
  change Only admitted (andThen p f)
  induction p with
  | done a => exact second a
  | ask c next ih => exact ⟨first.1, fun answer => ih answer (first.2 answer)⟩

theorem only_call_bind {admitted : Call → Prop} {c : Call} {f : Answer c → Procedure Call Answer β}
    (first : admitted c) (second : ∀ answer, Only admitted (f answer)) :
    Only admitted (call c >>= f) :=
  only_bind ((only_call admitted c).mpr first) second

theorem only_mono {admitted wider : Call → Prop} {p : Procedure Call Answer α}
    (implied : ∀ c, admitted c → wider c) (only : Only admitted p) : Only wider p := by
  induction p with
  | done a => trivial
  | ask c next ih => exact ⟨implied c only.1, fun answer => ih answer (only.2 answer)⟩

theorem only_embed {Other : Type} {OtherAnswer : Other → Type} (into : Call → Other)
    (back : (c : Call) → OtherAnswer (into c) → Answer c) (p : Procedure Call Answer α)
    {admitted : Other → Prop} (each : ∀ c, admitted (into c)) :
    Only admitted (p.embed into back) := by
  induction p with
  | done a => trivial
  | ask c next ih => exact ⟨each c, fun answer => ih (back c answer)⟩

/-- A procedure of calls that change nothing ends, with some value, where it began. -/
theorem holds_of_only {admitted : Call → Prop} {p : Procedure Call Answer α} {s : σ}
    (quiet : ∀ c answer t, admitted c → service c s answer t → t = s)
    (only : Only admitted p) (start : inv s) (ends : ∀ a, post a s) :
    Holds service inv post p s := by
  induction p with
  | done a => exact ends a
  | ask c next ih =>
      intro answer t served
      obtain rfl := quiet c answer t only.1 served
      exact ⟨start, ih answer (only.2 answer)⟩

end ModuleDepot.Procedure
