import TrafficAnalyzers.Trace
/-!
Operations on a state. One that fails keeps what it did to the state before, and every operation
only adds to the trace.
-/
namespace TrafficAnalyzers

/-- What an operation comes to: a result or a fault, the state it leaves, and its traces. -/
structure Outcome (σ α : Type) where
  result : Except Fault α
  state : σ
  trace : List Trace

def Op (σ α : Type) : Type := σ → Outcome σ α

namespace Op

variable {σ τ α β : Type}

/-- Goes on with `f` after a result; a fault ends the operation. -/
def andThen (o : Outcome σ α) (f : α → Op σ β) : Outcome σ β :=
  match o.result with
  | .ok a =>
    let next := f a o.state
    ⟨next.result, next.state, o.trace ++ next.trace⟩
  | .error fault => ⟨.error fault, o.state, o.trace⟩

instance : Monad (Op σ) where
  pure a := fun s => ⟨.ok a, s, []⟩
  bind x f := fun s => andThen (x s) f

/-- What `f` sees in the state. -/
def read (f : σ → α) : Op σ α := fun s => ⟨.ok (f s), s, []⟩

def update (f : σ → σ) : Op σ Unit := fun s => ⟨.ok (), f s, []⟩

/-- Takes an answer and the next state from `f`. -/
def answer (f : σ → α × σ) : Op σ α := fun s =>
  let given := f s
  ⟨.ok given.1, given.2, []⟩

def raise (fault : Fault) : Op σ α := fun s => ⟨.error fault, s, []⟩

def ofExcept : Except Fault α → Op σ α
  | .ok a => pure a
  | .error fault => raise fault

def emit (trace : Trace) : Op σ Unit := fun s => ⟨.ok (), s, [trace]⟩

def debug (text : String) : Op σ Unit := emit (.log .debug text)

/-- An operation on a part of the state, which `get` reads and `put` writes back. -/
def within (get : τ → σ) (put : σ → τ → τ) (x : Op σ α) : Op τ α := fun t =>
  let part := x (get t)
  ⟨part.result, put part.state t, part.trace⟩

@[simp] theorem pure_apply (a : α) (s : σ) : (pure a : Op σ α) s = ⟨.ok a, s, []⟩ := rfl

@[simp] theorem bind_apply (x : Op σ α) (f : α → Op σ β) (s : σ) :
    (x >>= f) s = andThen (x s) f := rfl

@[simp] theorem map_apply (f : α → β) (x : Op σ α) (s : σ) :
    (f <$> x) s = andThen (x s) fun a => pure (f a) := rfl

@[simp] theorem andThen_ok (a : α) (s : σ) (t : List Trace) (f : α → Op σ β) :
    andThen ⟨.ok a, s, t⟩ f = ⟨(f a s).result, (f a s).state, t ++ (f a s).trace⟩ := rfl

@[simp] theorem andThen_error (fault : Fault) (s : σ) (t : List Trace) (f : α → Op σ β) :
    andThen ⟨.error fault, s, t⟩ f = ⟨.error fault, s, t⟩ := rfl

theorem andThen_pure (o : Outcome σ α) (f : α → α) (h : ∀ a, f a = a) :
    andThen o (fun a => pure (f a)) = o := by
  rcases o with ⟨r, s, t⟩
  cases r <;> simp [h]

theorem andThen_andThen {γ : Type} (o : Outcome σ α) (f : α → Op σ β) (g : β → Op σ γ) :
    andThen (andThen o f) g = andThen o fun a => f a >>= g := by
  rcases o with ⟨r, s, t⟩
  cases r with
  | error fault => rfl
  | ok a =>
    simp only [andThen_ok, bind_apply]
    rcases f a s with ⟨r, s', t'⟩
    cases r <;> simp

instance : LawfulMonad (Op σ) :=
  .mk' _ (fun x => funext fun s => andThen_pure (x s) id fun _ => rfl)
    (fun a f => funext fun s => by simp)
    (fun x f g => funext fun s => andThen_andThen (x s) f g)

@[simp] theorem read_apply (f : σ → α) (s : σ) : read f s = ⟨.ok (f s), s, []⟩ := rfl

@[simp] theorem update_apply (f : σ → σ) (s : σ) : update f s = ⟨.ok (), f s, []⟩ := rfl

@[simp] theorem answer_apply (f : σ → α × σ) (s : σ) : answer f s = ⟨.ok (f s).1, (f s).2, []⟩ := rfl

@[simp] theorem raise_apply (fault : Fault) (s : σ) :
    (raise fault : Op σ α) s = ⟨.error fault, s, []⟩ := rfl

@[simp] theorem emit_apply (trace : Trace) (s : σ) : emit trace s = ⟨.ok (), s, [trace]⟩ := rfl

@[simp] theorem debug_apply (text : String) (s : σ) :
    debug text s = ⟨.ok (), s, [.log .debug text]⟩ := rfl

@[simp] theorem within_apply (get : τ → σ) (put : σ → τ → τ) (x : Op σ α) (t : τ) :
    within get put x t =
      ⟨(x (get t)).result, put (x (get t)).state t, (x (get t)).trace⟩ := rfl

end Op

end TrafficAnalyzers
