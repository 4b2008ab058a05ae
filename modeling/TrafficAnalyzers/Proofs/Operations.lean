import Mathlib.Order.Defs.Unbundled
import TrafficAnalyzers.Op
/-!
Two ways to speak about an operation without its traces: what it comes to, and the relation between
states along which it leads. What every primitive operation respects, every operation built from
them respects.
-/
namespace TrafficAnalyzers

/-- What an operation comes to, without its traces. -/
def Outcome.silent {σ α : Type} (o : Outcome σ α) : Except Fault α × σ := (o.result, o.state)

theorem state_eq_silent {σ α : Type} (o : Outcome σ α) : o.state = o.silent.2 := rfl

theorem state_of_silent {σ α : Type} {o : Outcome σ α} {result : Except Fault α} {s : σ}
    (h : o.silent = (result, s)) : o.state = s := congrArg Prod.snd h

namespace Op

variable {σ τ α β : Type} {R : σ → σ → Prop} {Q : τ → τ → Prop}

/-- Goes on after a result that came without traces. -/
def proceed (given : Except Fault α × σ) (f : α → Op σ β) : Except Fault β × σ :=
  match given with
  | (.ok a, s) => (f a s).silent
  | (.error fault, s) => (.error fault, s)

@[simp] theorem proceed_ok (a : α) (s : σ) (f : α → Op σ β) :
    proceed (.ok a, s) f = (f a s).silent := rfl

@[simp] theorem proceed_error (fault : Fault) (s : σ) (f : α → Op σ β) :
    proceed (.error fault, s) f = (.error fault, s) := rfl

theorem forM_cons (f : α → Op σ Unit) (a : α) (l : List α) :
    (a :: l).forM f = f a >>= fun _ => l.forM f := rfl

theorem bind_of_ok {x : Op σ α} {s : σ} {a : α} (h : (x s).result = .ok a) (f : α → Op σ β) :
    (x >>= f) s = ⟨(f a (x s).state).result, (f a (x s).state).state,
      (x s).trace ++ (f a (x s).state).trace⟩ := by
  rw [bind_apply, andThen, h]

theorem bind_of_error {x : Op σ α} {s : σ} {fault : Fault} (h : (x s).result = .error fault)
    (f : α → Op σ β) : (x >>= f) s = ⟨.error fault, (x s).state, (x s).trace⟩ := by
  rw [bind_apply, andThen, h]

/-- A sequence of operations that cannot fail cannot fail. -/
theorem result_forM_ok {f : α → Op σ Unit} (hf : ∀ a s, (f a s).result = .ok ()) (l : List α)
    (s : σ) : (l.forM f s).result = .ok () := by
  induction l generalizing s with
  | nil => rfl
  | cons a l ih =>
    rw [forM_cons, bind_of_ok (hf a s)]
    exact ih (f a s).state

/-- A sequence stops at the first of its operations that fails. -/
theorem forM_stopped {f : α → Op σ Unit} {before after : List α} {a : α} {s : σ} {fault : Fault}
    (hok : (before.forM f s).result = .ok ())
    (hfault : (f a (before.forM f s).state).result = .error fault) :
    ((before ++ a :: after).forM f s).result = .error fault ∧
      ((before ++ a :: after).forM f s).state = (f a (before.forM f s).state).state := by
  have happend : (before ++ a :: after).forM f = before.forM f >>= fun _ => (a :: after).forM f :=
    List.forM_append ..
  rw [happend, bind_of_ok hok, forM_cons, bind_of_error hfault]
  exact ⟨rfl, rfl⟩

/-- What comes before a part of it that succeeds has succeeded. -/
theorem result_of_append_ok {f : α → Op σ Unit} {before after : List α} {s : σ}
    (hok : ((before ++ after).forM f s).result = .ok ()) : (before.forM f s).result = .ok () := by
  have happend : (before ++ after).forM f = before.forM f >>= fun _ => after.forM f :=
    List.forM_append ..
  rw [happend] at hok
  cases hbefore : (before.forM f s).result with
  | ok => rfl
  | error fault =>
    rw [bind_of_error hbefore] at hok
    contradiction

/-- It fails exactly if one of them does, on the state that those before it left. -/
theorem result_forM_error_iff {f : α → Op σ Unit} {l : List α} {s : σ} {fault : Fault} :
    (l.forM f s).result = .error fault ↔ ∃ before a after, l = before ++ a :: after ∧
      (before.forM f s).result = .ok () ∧
        (f a (before.forM f s).state).result = .error fault := by
  constructor
  · intro h
    induction l generalizing s with
    | nil => cases h
    | cons a l ih =>
      rw [forM_cons] at h
      cases ha : (f a s).result with
      | error cause =>
        rw [bind_of_error ha] at h
        exact ⟨[], a, l, rfl, rfl, ha.trans h⟩
      | ok =>
        rw [bind_of_ok ha] at h
        obtain ⟨before, b, after, rfl, hok, hfault⟩ := ih h
        refine ⟨a :: before, b, after, rfl, ?_, ?_⟩ <;> rw [forM_cons, bind_of_ok ha]
        · exact hok
        · exact hfault
  · rintro ⟨before, a, after, rfl, hok, hfault⟩
    exact (forM_stopped hok hfault).1

theorem result_forM_ok_iff {f : α → Op σ Unit} {l : List α} {s : σ} :
    (l.forM f s).result = .ok () ↔ ∀ before a after, l = before ++ a :: after →
      (f a (before.forM f s).state).result = .ok () := by
  constructor
  · rintro hok before a after rfl
    cases ha : (f a (before.forM f s).state).result with
    | ok => rfl
    | error fault =>
      have hstopped : ((before ++ a :: after).forM f s).result = .error fault :=
        (forM_stopped (result_of_append_ok hok) ha).1
      rw [hok] at hstopped
      contradiction
  · intro hall
    cases hresult : (l.forM f s).result with
    | ok => rfl
    | error fault =>
      obtain ⟨before, a, after, hl, -, hfault⟩ := result_forM_error_iff.mp hresult
      rw [hall before a after hl] at hfault
      contradiction

@[simp] theorem silent_pure (a : α) (s : σ) : ((pure a : Op σ α) s).silent = (.ok a, s) := rfl

@[simp] theorem silent_read (f : σ → α) (s : σ) : (read f s).silent = (.ok (f s), s) := rfl

@[simp] theorem silent_debug (text : String) (s : σ) : (debug text s).silent = (.ok (), s) := rfl

theorem silent_bind (x : Op σ α) (f : α → Op σ β) (s : σ) :
    ((x >>= f) s).silent = proceed (x s).silent f := by
  rw [bind_apply]
  obtain ⟨result, s', t⟩ := x s
  cases result <;> rfl

theorem silent_read_bind (f : σ → α) (g : α → Op σ β) (s : σ) :
    ((read f >>= g) s).silent = (g (f s) s).silent := by
  rw [silent_bind, silent_read, proceed_ok]

/-- Debug messages leave traces only. -/
theorem silent_debug_bind (text : String) (x : Op σ α) (s : σ) :
    ((do debug text; x : Op σ α) s).silent = (x s).silent := by
  rw [silent_bind, silent_debug, proceed_ok]

theorem silent_bind_debug (x : Op σ Unit) (text : String) (s : σ) :
    ((do x; debug text : Op σ Unit) s).silent = (x s).silent := by
  rw [silent_bind]
  obtain ⟨_ | _, s'⟩ := (x s).silent <;> rfl

theorem fault_ne_ok {fault : Fault} {a : α} {s t : σ} :
    ((.error fault, s) : Except Fault α × σ) ≠ (.ok a, t) := by
  simp

/-- What has succeeded has succeeded in both its parts. -/
theorem ok_of_bind {x : Op σ α} {f : α → Op σ β} {s t : σ} {b : β}
    (h : ((x >>= f) s).silent = (.ok b, t)) :
    ∃ a u, (x s).silent = (.ok a, u) ∧ (f a u).silent = (.ok b, t) := by
  rw [silent_bind] at h
  generalize (x s).silent = given at h
  obtain ⟨result, u⟩ := given
  cases result with
  | error fault => exact absurd h fault_ne_ok
  | ok a => exact ⟨a, u, rfl, h⟩

/-- Operations that answer and leave the state alone do so one after the other. -/
theorem silent_mapM {f : α → Op σ β} {g : α → β} (hf : ∀ a s, (f a s).silent = (.ok (g a), s))
    (l : List α) (s : σ) : (l.mapM f s).silent = (.ok (l.map g), s) := by
  induction l with
  | nil => rfl
  | cons a l ih =>
    rw [List.mapM_cons, silent_bind, hf, proceed_ok, silent_bind, ih]
    rfl

theorem silent_forM {f : α → Op σ Unit} (hf : ∀ a s, (f a s).silent = (.ok (), s)) (l : List α)
    (s : σ) : (l.forM f s).silent = (.ok (), s) := by
  induction l with
  | nil => rfl
  | cons a l ih => rw [forM_cons, silent_bind, hf, proceed_ok, ih]

/-- Whether it succeeds or not, the operation leads from a state to one that `R` relates to it. -/
def Follows (R : σ → σ → Prop) (x : Op σ α) : Prop := ∀ s, R s (x s).state

theorem state_andThen (o : Outcome σ α) (f : α → Op σ β) :
    (andThen o f).state = match o.result with
      | .ok a => (f a o.state).state
      | .error _ => o.state := by
  obtain ⟨result, s, t⟩ := o
  cases result <;> rfl

theorem Follows.bind [IsTrans σ R] {x : Op σ α} {f : α → Op σ β} (hx : x.Follows R)
    (hf : ∀ a, (f a).Follows R) : (x >>= f).Follows R := by
  intro s
  rw [bind_apply, state_andThen]
  split
  · exact IsTrans.trans _ _ _ (hx s) (hf _ _)
  · exact hx s

/-- A sequence follows `R` if, from where it starts, each of its operations does. -/
theorem Follows.forM [IsPreorder σ R] {f : α → Op σ Unit} {l : List α}
    (h : ∀ a ∈ l, (f a).Follows R) : (l.forM f).Follows R := by
  induction l with
  | nil => exact fun s => refl s
  | cons a l ih =>
    exact (h a List.mem_cons_self).bind fun _ => ih fun b hb => h b (List.mem_cons_of_mem a hb)

theorem Follows.of_silent {x : Op σ α} (hx : x.Follows R) {result : Except Fault α} {s t : σ}
    (h : (x s).silent = (result, t)) : R s t := state_of_silent h ▸ hx s

theorem state_map (f : α → β) (x : Op σ α) (s : σ) : ((f <$> x) s).state = (x s).state := by
  rw [map_apply, state_andThen]
  split <;> rfl

/-- What an operation does to a part of the state, it does to the whole as far as that part goes. -/
theorem Follows.within {get : τ → σ} {put : σ → τ → τ} {x : Op σ α} (hx : x.Follows R)
    (h : ∀ t s, R (get t) s → Q t (put s t)) : (within get put x).Follows Q :=
  fun t => h t _ (hx (get t))

section Still

variable [Std.Refl R]

theorem follows_pure (a : α) : (pure a : Op σ α).Follows R := fun s => refl s

theorem follows_read (f : σ → α) : (read f).Follows R := fun s => refl s

theorem follows_raise (fault : Fault) : (raise fault : Op σ α).Follows R := fun s => refl s

theorem follows_ofExcept (e : Except Fault α) : (ofExcept e : Op σ α).Follows R := by
  cases e with
  | ok a => exact follows_pure a
  | error fault => exact follows_raise fault

theorem follows_emit (trace : Trace) : (emit trace : Op σ Unit).Follows R := fun s => refl s

theorem follows_debug (text : String) : (debug text : Op σ Unit).Follows R := follows_emit _

end Still

theorem follows_update {f : σ → σ} (h : ∀ s, R s (f s)) : (update f).Follows R := h

theorem follows_answer {f : σ → α × σ} (h : ∀ s, R s (f s).2) : (answer f).Follows R := h

end Op

end TrafficAnalyzers
