import TrafficAnalyzers.Proofs.Resolution.Outcome
import TrafficAnalyzers.Proofs.Session
/-!
The second phase of registration as the tasks of a resolution. Main statement: a plugin whose
runtime starts does the tasks of its schedule, and is resolved if none of them is a fault.
-/
namespace TrafficAnalyzers

/-- The identifier with the placeholder for its type, unless it has one. -/
def Ident.filled (i : Ident) : Ident := { i with type := i.type.or (some .placeholder) }

namespace Registry

def withIdents (idents : List Ident) (r : Registry LocalHost) : Registry LocalHost :=
  { r with host := { r.host with idents } }

/-- What is done to one place depends on what stands there only. -/
theorem modify_congr {α : Type} {l : List α} {n : Nat} {f g : α → α}
    (h : ∀ a, l[n]? = some a → f a = g a) : l.modify n f = l.modify n g := by
  apply List.ext_getElem?
  intro m
  rw [List.getElem?_modify, List.getElem?_modify]
  by_cases hm : n = m
  · subst hm
    cases ha : l[n]? with
    | none => rfl
    | some a => simp [h a ha]
  · simp [hm]

theorem map_modify {α β : Type} {l : List α} {n : Nat} {f : α → α} {g : β → β} {u : α → β}
    (h : ∀ a, u (f a) = g (u a)) : (l.modify n f).map u = (l.map u).modify n g := by
  apply List.ext_getElem?
  intro m
  rw [List.getElem?_map, List.getElem?_modify, List.getElem?_modify, List.getElem?_map]
  by_cases hm : n = m <;> cases l[m]? <;> simp [hm, h]

theorem map_modify_eq {α β : Type} {l : List α} {n : Nat} {f : α → α} {u : α → β}
    (h : ∀ a, u (f a) = u a) : (l.modify n f).map u = l.map u := by
  rw [map_modify (g := id) h, List.modify_id]

/-- Assigning a placeholder cannot fail, and passes over an identifier with a type. -/
theorem silent_assignPlaceholder (name : String) (n : Nat) (r : Registry LocalHost) :
    (assignPlaceholder name n r).silent =
      (.ok (), r.withIdents (r.host.idents.modify n Ident.filled)) := by
  have htyped : Host.identHasType r.host n = (r.host.idents[n]?.bind (·.type)).isSome := rfl
  rw [assignPlaceholder, silent_query_bind, htyped]
  split
  next h =>
    have hsame : r.host.idents.modify n id = r.host.idents.modify n Ident.filled := by
      refine modify_congr fun i hi => ?_
      obtain ⟨type, htype⟩ := Option.isSome_iff_exists.mp h
      have hi : i.type = some type := by simpa [hi] using htype
      cases i
      simp_all [Ident.filled]
    rw [← hsame, List.modify_id]
    rfl
  next h =>
    have hsame : r.host.idents.modify n ({ · with type := some .placeholder }) =
        r.host.idents.modify n Ident.filled := by
      refine modify_congr fun i hi => ?_
      have hnone : i.type = none := by simpa [hi] using h
      simp [Ident.filled, hnone]
    rw [Op.silent_debug_bind, silent_changeHost, ← hsame]
    rfl

/-- The identifiers when placeholders are assigned. -/
def placeholders (r : Registry LocalHost) : List Ident :=
  r.events.entries.foldl (fun idents event => idents.modify event.2 Ident.filled) r.host.idents

/-- Assigning placeholders cannot fail and changes identifiers only. -/
theorem silent_assignPlaceholders (r : Registry LocalHost) :
    (assignPlaceholders r).silent = (.ok (), r.withIdents r.placeholders) := by
  rw [assignPlaceholders, Op.silent_read_bind, placeholders]
  generalize r.events.entries = events
  induction events generalizing r with
  | nil => rfl
  | cons event events ih =>
    rw [Op.forM_cons, Op.silent_bind, silent_assignPlaceholder, Op.proceed_ok, ih]
    rfl

/-- The registry when placeholders are assigned and the parser runtime is started. -/
def started (idents : List Ident) (options : RuntimeOptions) (r : Registry LocalHost) :
    Registry LocalHost :=
  { r.withIdents idents with runtime := { r.runtime with options := some options } }

/-- The registry that a resolution finds. -/
def prepared (r : Registry LocalHost) : Registry LocalHost :=
  r.started r.placeholders (Plugin.runtimeOptions r.host)

end Registry

namespace Plugin

theorem silent_startRuntime {r : Registry LocalHost} (hstart : r.runtime.failures = []) :
    (startRuntime r).silent = (.ok (), { r with
      runtime := { r.runtime with options := some (runtimeOptions r.host) } }) := by
  obtain ⟨host, analyzers, events, parsers, options, failures⟩ := r
  obtain rfl : failures = [] := hstart
  rfl

/-- The runtime's refusal to start comes before any resolution. -/
theorem result_afterScripts_of_failure {p : Plugin LocalHost} (hphase : p.phase = .registering)
    {failure : RuntimeFailure} {failures : List RuntimeFailure}
    (hstart : p.registry.runtime.failures = failure :: failures) :
    (afterScripts p).result = .error (.runtimeNotStarted failure) := by
  have hidents := Registry.silent_assignPlaceholders p.registry
  have hout : (startRuntime (p.registry.withIdents p.registry.placeholders)).silent.1 =
      .error (.runtimeNotStarted failure) := by
    obtain ⟨_, ⟨_, _, _, _, _, fs⟩, _, _⟩ := p
    obtain rfl : fs = failure :: failures := hstart
    rfl
  change (afterScripts p).silent.1 = _
  rw [afterScripts, silent_whileRegistering_bind hphase, Op.silent_debug_bind, Op.silent_bind,
    silent_onRegistry, hidents, Op.proceed_ok, Op.silent_debug_bind, Op.silent_bind,
    silent_onRegistry, hout]
  rfl

/-- Only a resolution without a fault ends the phase. -/
theorem proceed_resolution (p : Plugin LocalHost) (out : Except Fault Unit × Registry LocalHost) :
    Op.proceed (out.1, { p with registry := out.2 }) (fun _ => do
      .update fun p => { p with phase := .resolved }
      .debug "Done with post-script initialization") = match out with
      | (.ok (), r) => (.ok (), { p with registry := r, phase := .resolved })
      | (.error fault, r) => (.error fault, { p with registry := r }) := by
  obtain ⟨result, r⟩ := out
  cases result <;> rfl

theorem silent_afterScripts {p : Plugin LocalHost} (hphase : p.phase = .registering)
    (hstart : p.registry.runtime.failures = []) :
    (afterScripts p).silent =
      match Registry.carryOut (Registry.schedule p.registry.host p.registry.runtime.parsers
        p.registry.analyzers) p.registry.prepared with
      | (.ok (), r) => (.ok (), { p with registry := r, phase := .resolved })
      | (.error fault, r) => (.error fault, { p with registry := r }) := by
  have hidents := Registry.silent_assignPlaceholders p.registry
  have hruntime :=
    silent_startRuntime (r := p.registry.withIdents p.registry.placeholders) hstart
  rw [afterScripts, silent_whileRegistering_bind hphase, Op.silent_debug_bind, Op.silent_bind,
    silent_onRegistry, hidents, Op.proceed_ok, Op.silent_debug_bind, Op.silent_bind,
    silent_onRegistry, hruntime, Op.proceed_ok, Op.silent_read_bind, Op.silent_bind,
    silent_onRegistry, Registry.silent_resolve]
  exact proceed_resolution p _

/-- In `s` the analyzers of a plugin `q` are resolved and, on top of what was bound before, bound to
their ports and MIME types, each of them once. -/
structure Resolves (parsers : List Parser) (a : Analyzers) (q s : Plugin LocalHost) : Prop where
  phase : s.phase = .resolved
  analyzers : s.registry.analyzers = a.resolved parsers
  bindings : s.registry.host.portBindings = q.registry.host.portBindings ++
    a.protocol.toList.flatMap fun p => p.decl.bindings q.registry.host parsers
  events : s.registry.host.queuedEvents = q.registry.host.queuedEvents ++
    a.file.toList.flatMap fun p => p.decl.events q.registry.host parsers

/-- The parsers that records had before do not matter. -/
theorem Resolves.congr {parsers : List Parser} {a b : Analyzers} {q s : Plugin LocalHost}
    (h : Resolves parsers a q s) (hab : a.unresolved = b.unresolved) : Resolves parsers b q s where
  phase := h.phase
  analyzers := h.analyzers.trans (Analyzers.resolved_congr hab)
  bindings := by rw [h.bindings, Analyzers.flatMap_protocol_congr hab]
  events := by rw [h.events, Analyzers.flatMap_file_congr hab]

variable {p : Plugin LocalHost}

theorem failures_of_started (hphase : p.phase = .registering)
    (hstart : ∀ failure, (afterScripts p).result ≠ .error (.runtimeNotStarted failure)) :
    p.registry.runtime.failures = [] := by
  cases hf : p.registry.runtime.failures with
  | nil => rfl
  | cons failure failures =>
    exact absurd (result_afterScripts_of_failure hphase hf) (hstart failure)

/-- A plugin whose runtime starts is resolved exactly if all its analyzers can be. -/
theorem result_afterScripts_ok_iff (hphase : p.phase = .registering)
    (hstart : p.registry.runtime.failures = []) : (afterScripts p).result = .ok () ↔
      p.registry.analyzers.Resolvable p.registry.host p.registry.runtime.parsers := by
  have hout := silent_afterScripts hphase hstart
  rw [← Registry.faultless_schedule, ← Registry.carryOut_ok_iff (r := p.registry.prepared)]
  change (afterScripts p).silent.1 = _ ↔ _
  rw [hout]
  rcases Registry.carryOut _ _ with ⟨result, r⟩
  cases result <;> simp

/-- A plugin that got through its second phase is resolved from the prepared registry. -/
theorem state_afterScripts (hp : p.registry.analyzers.Placed) (hphase : p.phase = .registering)
    (hok : (afterScripts p).result = .ok ()) : (afterScripts p).state =
      { p with
        registry := p.registry.prepared.withResolved p.registry.runtime.parsers
        phase := .resolved } := by
  have hstart := failures_of_started hphase (by simp [hok])
  have hr := (result_afterScripts_ok_iff hphase hstart).mp hok
  have hcomponents : p.registry.host.components = p.registry.prepared.host.components := rfl
  have hprepared := Analyzers.resolvable_of_components hcomponents hr
  have hcarry : Registry.carryOut (Registry.schedule p.registry.host p.registry.runtime.parsers
      p.registry.analyzers) p.registry.prepared =
        (.ok (), p.registry.prepared.withResolved p.registry.runtime.parsers) :=
    Registry.carryOut_schedule (r := p.registry.prepared) hp hprepared
  have hout := silent_afterScripts hphase hstart
  rw [hcarry] at hout
  exact state_of_silent hout

theorem resolves_afterScripts (hp : p.registry.analyzers.Placed) (hphase : p.phase = .registering)
    (hok : (afterScripts p).result = .ok ()) :
    Resolves p.registry.runtime.parsers p.registry.analyzers p (afterScripts p).state := by
  rw [state_afterScripts hp hphase hok]
  exact ⟨rfl, rfl, rfl, rfl⟩

end Plugin

end TrafficAnalyzers
