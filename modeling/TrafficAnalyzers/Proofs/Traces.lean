import TrafficAnalyzers.Proofs.Operations
/-!
Operations with their traces: the relation, between a state and the next one, along which an
operation leads and what it leaves behind on the way. What every primitive operation respects, every
operation built from them respects.
-/
namespace TrafficAnalyzers.Op

variable {σ α β : Type} {R : σ → List Trace → σ → Prop}

/-- Relations that hold of nothing happening, and of one thing happening after another. -/
class Chains (R : σ → List Trace → σ → Prop) : Prop where
  nil (s : σ) : R s [] s
  append {s s' s'' : σ} {t t' : List Trace} : R s t s' → R s' t' s'' → R s (t ++ t') s''

/-- From the state `s`, whether it succeeds or not, the operation leads to a state to which `R`
relates `s` by the traces. -/
def YieldsAt (R : σ → List Trace → σ → Prop) (x : Op σ α) (s : σ) : Prop := R s (x s).trace (x s).state

/-- It does so from every state. -/
def Yields (R : σ → List Trace → σ → Prop) (x : Op σ α) : Prop := ∀ s, x.YieldsAt R s

section Chained

variable [Chains R]

theorem YieldsAt.bind {x : Op σ α} {f : α → Op σ β} {s : σ} (hx : x.YieldsAt R s)
    (hf : ∀ a, (x s).result = .ok a → (f a).YieldsAt R (x s).state) : (x >>= f).YieldsAt R s := by
  unfold YieldsAt at *
  rw [bind_apply]
  generalize x s = o at hx hf
  obtain ⟨result, s', t⟩ := o
  cases result with
  | error fault => exact hx
  | ok a => exact Chains.append hx (hf a rfl)

theorem Yields.bind {x : Op σ α} {f : α → Op σ β} (hx : x.Yields R) (hf : ∀ a, (f a).Yields R) :
    (x >>= f).Yields R := fun s => (hx s).bind fun a _ => hf a _

/-- A sequence yields `R` if each of its operations does. -/
theorem Yields.forM {f : α → Op σ Unit} {l : List α} (h : ∀ a ∈ l, (f a).Yields R) :
    (l.forM f).Yields R := by
  induction l with
  | nil => exact fun s => Chains.nil s
  | cons a l ih =>
    exact (h a List.mem_cons_self).bind fun _ => ih fun b hb => h b (List.mem_cons_of_mem a hb)

theorem yields_pure (a : α) : (pure a : Op σ α).Yields R := fun s => Chains.nil s

theorem Yields.map {x : Op σ α} (hx : x.Yields R) (f : α → β) : (f <$> x).Yields R :=
  hx.bind fun a => yields_pure (f a)

theorem Yields.mapM {f : α → Op σ β} (hf : ∀ a, (f a).Yields R) (l : List α) :
    (l.mapM f).Yields R := by
  induction l with
  | nil => exact fun s => Chains.nil s
  | cons a l ih =>
    rw [List.mapM_cons]
    exact (hf a).bind fun b => ih.bind fun bs => yields_pure _

theorem yields_read (f : σ → α) : (read f).Yields R := fun s => Chains.nil s

theorem yields_raise (fault : Fault) : (raise fault : Op σ α).Yields R := fun s => Chains.nil s

theorem yields_ofExcept (e : Except Fault α) : (ofExcept e : Op σ α).Yields R := by
  cases e with
  | ok a => exact yields_pure a
  | error fault => exact yields_raise fault

end Chained

theorem yields_update {f : σ → σ} (h : ∀ s, R s [] (f s)) : (update f).Yields R := h

/-- A relation between states, whatever the traces. -/
def Between (Q : σ → σ → Prop) (s : σ) (_ : List Trace) (s' : σ) : Prop := Q s s'

instance {Q : σ → σ → Prop} [IsPreorder σ Q] : Chains (Between Q) where
  nil s := refl s
  append h h' := IsTrans.trans (r := Q) _ _ _ h h'

theorem follows_of_yields {Q : σ → σ → Prop} {x : Op σ α} (h : x.Yields (Between Q)) :
    x.Follows Q := h

end TrafficAnalyzers.Op
