import TrafficAnalyzers.Proofs.Resolution.Finish
/-!
A resolution that stops at a fault, and the next attempt. Main statement: nothing is taken back, so
what was bound before the fault is bound once more when the next attempt succeeds.
-/
namespace TrafficAnalyzers.Plugin

open Registry (Task)

/-- What a call leaves whose resolution stopped at a fault: the tasks before the fault are done, and
but for them analyzers, components, parsers, modules and the phase are what they were. -/
structure StoppedAfter (done : List Task) (fault : Fault) (p q : Plugin LocalHost) : Prop where
  scheduled : ∃ rest, Registry.schedule p.registry.host p.registry.runtime.parsers
    p.registry.analyzers = done ++ .stop fault :: rest
  faultless : Registry.Faultless done
  bindings : q.registry.host.portBindings =
    p.registry.host.portBindings ++ done.filterMap Task.binding?
  events : q.registry.host.queuedEvents =
    p.registry.host.queuedEvents ++ done.filterMap Task.event?
  analyzers : q.registry.analyzers = done.foldl (fun a t => t.store a) p.registry.analyzers
  unresolved : q.registry.analyzers.unresolved = p.registry.analyzers.unresolved
  components : q.registry.host.components = p.registry.host.components
  parsers : q.registry.runtime.parsers = p.registry.runtime.parsers
  failures : q.registry.runtime.failures = []
  modules : q.modules = p.modules
  phase : q.phase = .registering

variable {p : Plugin LocalHost} {fault : Fault}

theorem stoppedAfter_afterScripts (hp : p.registry.analyzers.Placed)
    (hphase : p.phase = .registering) (hstart : p.registry.runtime.failures = [])
    (hfault : (afterScripts p).result = .error fault) :
    ∃ done, StoppedAfter done fault p (afterScripts p).state := by
  have hnot : ¬ Registry.Faultless (Registry.schedule p.registry.host p.registry.runtime.parsers
      p.registry.analyzers) := by
    rw [Registry.faultless_schedule, ← result_afterScripts_ok_iff hphase hstart, hfault]
    simp
  have hout := silent_afterScripts hphase hstart
  obtain ⟨done, found, rest, hts, hdone, hcarry⟩ :=
    Registry.carryOut_stopped hnot p.registry.prepared
  rw [hcarry] at hout
  obtain rfl : found = fault := by
    have hresult : (afterScripts p).result = .error found := congrArg Prod.fst hout
    simpa [hresult] using hfault
  have hrenews : ∀ t ∈ done, t.Renews p.registry.analyzers := fun t ht =>
    Registry.renews_schedule hp t (hts ▸ List.mem_append_left _ ht)
  rw [state_of_silent hout]
  exact ⟨done, ⟨rest, hts⟩, hdone, rfl, rfl, rfl, (Task.foldl_store hp hrenews).2, rfl, rfl, hstart,
    rfl, hphase⟩

/-- The plugin with more parsers, and no other change. -/
def withParsers (more : List Parser) (p : Plugin LocalHost) : Plugin LocalHost :=
  { p with
    registry := { p.registry with
      runtime := { p.registry.runtime with parsers := p.registry.runtime.parsers ++ more } } }

theorem withParsers_cons (parser : Parser) (more : List Parser) (p : Plugin LocalHost) :
    (p.withParsers [parser]).withParsers more = p.withParsers (parser :: more) := by
  simp [withParsers]

theorem after_parsers (hphase : p.phase = .registering) (more : List Parser) :
    p.after (more.map fun parser => .register (.parser parser)) = p.withParsers more := by
  induction more generalizing p with
  | nil => simp [after, withParsers]
  | cons parser more ih =>
    rw [List.map_cons, after, List.foldl_cons, leave_register hphase]
    change after _ (p.withParsers [parser]) = _
    rw [ih (p := p.withParsers [parser]) hphase, withParsers_cons]

/-- A failed resolution takes nothing back. The next attempt, with more parsers, succeeds exactly if
all analyzers can be resolved then, and binds all ports and MIME types on top of what was bound
before the fault. -/
theorem failed_resolution_kept (hp : p.Reached) (hphase : p.phase = .registering)
    (hfault : (afterScripts p).result = .error fault)
    (hstart : ∀ failure, fault ≠ .runtimeNotStarted failure) :
    let q := (afterScripts p).state
    (∃ done, StoppedAfter done fault p q) ∧ ∀ more : List Parser,
      let again := q.after (more.map fun parser => .register (.parser parser))
      let parsers := p.registry.runtime.parsers ++ more
      ((afterScripts again).result = .ok () ↔
        p.registry.analyzers.Resolvable p.registry.host parsers) ∧
      ((afterScripts again).result = .ok () →
        Resolves parsers p.registry.analyzers q (afterScripts again).state) := by
  intro q
  have hnone := failures_of_started hphase fun failure he =>
    hstart failure (Except.error.inj (hfault.symm.trans he))
  obtain ⟨done, hq⟩ : ∃ done, StoppedAfter done fault p q :=
    stoppedAfter_afterScripts hp.placed hphase hnone hfault
  refine ⟨⟨done, hq⟩, fun more => ?_⟩
  intro again parsers
  -- The next attempt starts where the first one stopped, with some of the records resolved.
  have hagain : again = q.withParsers more := after_parsers hq.phase more
  have hsame : again.registry.analyzers.unresolved = p.registry.analyzers.unresolved :=
    hagain ▸ hq.unresolved
  have hcomponents : again.registry.host.components = p.registry.host.components :=
    hagain ▸ hq.components
  have hparsers : again.registry.runtime.parsers = parsers := by
    rw [hagain]
    exact congrArg (· ++ more) hq.parsers
  have hphase' : again.phase = .registering := hagain ▸ hq.phase
  constructor
  · rw [result_afterScripts_ok_iff hphase' (hagain ▸ hq.failures), hparsers,
      Analyzers.resolvable_congr hsame]
    exact ⟨Analyzers.resolvable_of_components hcomponents,
      Analyzers.resolvable_of_components hcomponents.symm⟩
  · intro hok
    have hplaced : again.registry.analyzers.Placed := (hp.call .afterScripts).after _ |>.placed
    have hall := (resolves_afterScripts hplaced hphase' hok).congr hsame
    rw [hparsers] at hall
    exact ⟨hall.phase, hall.analyzers, hagain ▸ hall.bindings, hagain ▸ hall.events⟩

/-- Of two analyzers the second one asks for a parser that is missing. -/
def lacking : Plugin LocalHost :=
  (bare (.new 0 "" true)).after
    [.register (.protocol ⟨"Found", .tcp, [⟨80, .tcp⟩], "", "", ""⟩),
      .register (.protocol ⟨"Lacking", .tcp, [], "", "Missing", ""⟩)]

theorem reached_lacking : lacking.Reached := (reached_bare (.new 0 "" true)).after _

/-- A failed resolution is not undone: the port of the first analyzer stays bound. -/
theorem failed_resolution_not_undone : ¬ ∀ (p : Plugin LocalHost) (fault : Fault), p.Reached →
    p.phase = .registering → (afterScripts p).result = .error fault →
    (∀ failure, fault ≠ .runtimeNotStarted failure) →
      let q := (afterScripts p).state
      q.registry.host.portBindings = p.registry.host.portBindings ∧
        q.registry.host.queuedEvents = p.registry.host.queuedEvents ∧
        q.registry.analyzers = p.registry.analyzers := by
  intro hundone
  have hsame := hundone lacking (.unknownParser "Missing" "Lacking") reached_lacking rfl
    (by decide +kernel) nofun
  exact absurd hsame.1 (by decide +kernel)

/-- The port of the first analyzer is bound by the failed attempt and by the next one. -/
theorem lacking_resolution_kept :
    let q := (afterScripts lacking).state
    let s := (afterScripts (q.after [.register (.parser ⟨"Missing", [], []⟩)])).state
    (∃ done, StoppedAfter done (.unknownParser "Missing" "Lacking") lacking q) ∧
      q.registry.host.portBindings = [⟨1, .tcp, 80⟩] ∧
      s.registry.host.portBindings = [⟨1, .tcp, 80⟩, ⟨1, .tcp, 80⟩] := by
  intro q s
  have hfault : (afterScripts lacking).result = .error (.unknownParser "Missing" "Lacking") := by
    decide +kernel
  have hkept := failed_resolution_kept reached_lacking rfl hfault nofun
  exact ⟨hkept.1, by decide +kernel, by decide +kernel⟩

end TrafficAnalyzers.Plugin
