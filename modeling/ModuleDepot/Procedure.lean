/-!
Procedures that work through others: a procedure either is done with a value, or
makes one call and goes on with the answer. What a call does is left to whoever
runs the procedure, so every call may fail, and every state between two calls can
be looked at.
-/

namespace ModuleDepot

/-- A procedure that makes calls of type `Call`, each with its own type of answers. -/
inductive Procedure (Call : Type) (Answer : Call → Type) (α : Type) where
  | done (value : α)
  | ask (call : Call) (next : Answer call → Procedure Call Answer α)

namespace Procedure

variable {Call : Type} {Answer : Call → Type} {α β σ : Type}

def andThen : Procedure Call Answer α → (α → Procedure Call Answer β) →
    Procedure Call Answer β
  | done a, f => f a
  | ask call next, f => ask call fun answer => andThen (next answer) f

instance : Monad (Procedure Call Answer) where
  pure := done
  bind := andThen

def call (c : Call) : Procedure Call Answer (Answer c) := ask c done

/-- Runs a procedure: `handle` answers each call and may change the state. -/
def run (handle : (c : Call) → σ → Answer c × σ) : Procedure Call Answer α → σ → α × σ
  | done a, state => (a, state)
  | ask call next, state =>
      let (answer, state) := handle call state
      run handle (next answer) state

/-- Makes a procedure's calls among those of a larger type. -/
def embed {Other : Type} {OtherAnswer : Other → Type} (into : Call → Other)
    (back : (c : Call) → OtherAnswer (into c) → Answer c) :
    Procedure Call Answer α → Procedure Other OtherAnswer α
  | done a => done a
  | ask call next => ask (into call) fun answer => embed into back (next (back call answer))

theorem run_andThen (handle : (c : Call) → σ → Answer c × σ)
    (p : Procedure Call Answer α) (f : α → Procedure Call Answer β) (state : σ) :
    run handle (andThen p f) state =
      run handle (f (run handle p state).1) (run handle p state).2 := by
  induction p generalizing state with
  | done a => rfl
  | ask call next ih => simp [andThen, run, ih]

end Procedure

end ModuleDepot
