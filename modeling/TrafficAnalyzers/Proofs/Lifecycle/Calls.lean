import TrafficAnalyzers.Proofs.Modules.Loading
import TrafficAnalyzers.Proofs.Session
/-!
What single calls do to the phase and to the parser runtime, over any host. Main statements: the end
of registration and the end of the plugin change the phase, and start and stop the runtime; all
other calls leave the phase as it is and hand parsers over at most, and that during registration.
-/
namespace TrafficAnalyzers

/-- The calls to the runtime among traces. -/
def Trace.runtimeCalls (t : List Trace) : List RuntimeCall := t.filterMap runtimeCall?

@[simp] theorem Trace.runtimeCalls_append (t u : List Trace) :
    runtimeCalls (t ++ u) = runtimeCalls t ++ runtimeCalls u := List.filterMap_append

namespace Registry

variable {H : Type}

/-- The runtime stays as it is and is not called. -/
structure Quiet (r : Registry H) (t : List Trace) (r' : Registry H) : Prop where
  runtime : r'.runtime = r.runtime
  calls : Trace.runtimeCalls t = []

/-- Besides, tables and events stay as they are. -/
structure Rests (r : Registry H) (t : List Trace) (r' : Registry H) : Prop extends Quiet r t r' where
  analyzers : r'.analyzers = r.analyzers
  events : r'.events = r.events

instance : Op.Chains (Quiet (H := H)) where
  nil _ := ⟨rfl, rfl⟩
  append h h' :=
    ⟨h'.runtime.trans h.runtime, by rw [Trace.runtimeCalls_append, h.calls, h'.calls]; rfl⟩

instance : Op.Chains (Rests (H := H)) where
  nil r := ⟨Op.Chains.nil r, rfl, rfl⟩
  append h h' := ⟨Op.Chains.append h.toQuiet h'.toQuiet, h'.analyzers.trans h.analyzers,
    h'.events.trans h.events⟩

theorem quiet_debug (text : String) : (Op.debug text : Op (Registry H) Unit).Yields Quiet :=
  fun _ => ⟨rfl, rfl⟩

theorem quiet_changeHost (f : H → H) : (changeHost f).Yields Quiet := fun _ => ⟨rfl, rfl⟩

theorem quiet_changeAnalyzers (f : Analyzers → Analyzers) :
    (changeAnalyzers f : Op (Registry H) Unit).Yields Quiet := fun _ => ⟨rfl, rfl⟩

variable [Host H]

/-- A toggle is a matter of the host. -/
theorem rests_toggle (tag : Tag) (enable : Bool) :
    (toggle tag enable : Op (Registry H) Bool).Yields Rests := by
  apply yields_toggle
  · exact fun _ _ => ⟨⟨rfl, rfl⟩, rfl, rfl⟩
  · exact fun _ _ _ => ⟨⟨rfl, rfl⟩, rfl, rfl⟩
  · exact fun _ _ _ => ⟨⟨rfl, rfl⟩, rfl, rfl⟩

theorem quiet_assignPlaceholders : (assignPlaceholders : Op (Registry H) Unit).Yields Quiet := by
  refine (Op.yields_read _).bind fun events => Op.Yields.forM fun event _ => ?_
  refine (Op.yields_read _).bind fun typed => ?_
  split
  · exact Op.yields_pure ()
  · exact (quiet_debug _).bind fun _ => quiet_changeHost _

/-- Assigning placeholders cannot fail. -/
theorem result_assignPlaceholders (r : Registry H) : (assignPlaceholders r).result = .ok () := by
  refine Op.result_forM_ok (fun event r => ?_) r.events.entries r
  unfold assignPlaceholder
  cases htyped : Host.identHasType r.host event.2 <;> simp [htyped]

theorem quiet_bindPort (id : UInt32) (port : Port) :
    (bindPort id port : Op (Registry H) Unit).Yields Quiet := by
  refine (quiet_debug _).bind fun _ => ?_
  split
  · exact quiet_changeHost _
  · exact Op.yields_raise _

omit [Host H] in
theorem quiet_idByName (find : H → String → Option UInt32) (name : String) :
    (idByName find name).Yields Quiet := by
  refine (Op.yields_read _).bind fun id => ?_
  cases id with
  | none => exact Op.yields_raise _
  | some id => exact Op.yields_pure id

theorem quiet_resolveProtocol (parsers : List Parser) (p : ProtocolAnalyzer) :
    (resolveProtocol parsers p : Op (Registry H) Unit).Yields Quiet :=
  (quiet_debug _).bind fun _ => (Op.yields_ofExcept _).bind fun _ =>
    (quiet_changeAnalyzers _).bind fun _ => (Op.yields_ofExcept _).bind fun _ =>
      (quiet_changeAnalyzers _).bind fun _ => (quiet_idByName _ _).bind fun id =>
        (Op.Yields.forM fun port _ => quiet_bindPort id port).bind fun _ =>
          Op.Yields.forM fun port _ => quiet_bindPort id port

theorem quiet_resolveFile (parsers : List Parser) (p : FileAnalyzer) :
    (resolveFile parsers p : Op (Registry H) Unit).Yields Quiet :=
  (quiet_debug _).bind fun _ => (Op.yields_ofExcept _).bind fun _ =>
    (quiet_changeAnalyzers _).bind fun _ => (quiet_idByName _ _).bind fun _ =>
      Op.Yields.forM fun _ _ => (quiet_debug _).bind fun _ => quiet_changeHost _

omit [Host H] in
theorem quiet_resolvePacket (parsers : List Parser) (p : PacketAnalyzer) :
    (resolvePacket parsers p : Op (Registry H) Unit).Yields Quiet :=
  (quiet_debug _).bind fun _ => (Op.yields_ofExcept _).bind fun _ => quiet_changeAnalyzers _

theorem quiet_resolve (parsers : List Parser) :
    (resolve parsers : Op (Registry H) Unit).Yields Quiet :=
  (Op.yields_read _).bind fun _ =>
    (Op.Yields.forM fun p _ => quiet_resolveProtocol parsers p).bind fun _ =>
      (Op.Yields.forM fun p _ => quiet_resolveFile parsers p).bind fun _ =>
        Op.Yields.forM fun p _ => quiet_resolvePacket parsers p

end Registry

/-- Of registrations, nothing but parsers reaches the runtime. -/
theorem Trace.registered_of_ofRegistration {t : List Trace} (ht : ∀ e ∈ t, e.ofRegistration)
    {call : RuntimeCall} (hcall : call ∈ runtimeCalls t) : ∃ parser, call = .registered parser := by
  obtain ⟨e, he, hcall⟩ := List.mem_filterMap.mp hcall
  have hkind := ht e he
  cases e with
  | runtime called =>
    obtain rfl := Option.some.inj hcall
    cases called with
    | registered parser => exact ⟨parser, rfl⟩
    | started | startFailed | stopped => contradiction
  | log | opened | registering | registered => contradiction

namespace Plugin

variable {H : Type} [Host H]

theorem runtimeCalls_entered (location : Location) (script : Script) (now : Timestamp)
    (p : Plugin H) : Trace.runtimeCalls (p.entered location script now).trace =
      Trace.runtimeCalls (Registry.run script p.registry).trace := by
  have hend : ∀ result, Trace.runtimeCalls (completion location result) = [] := by
    intro result
    cases result <;> rfl
  simp only [entered, Trace.runtimeCalls_append, hend, List.append_nil]
  rfl

/-- The phase stays, and the runtime is called only to hand parsers over during registration. -/
structure Calm (p : Plugin H) (t : List Trace) (q : Plugin H) : Prop where
  phase : q.phase = p.phase
  calls : ∀ call ∈ Trace.runtimeCalls t, p.phase = .registering ∧ ∃ parser, call = .registered parser

omit [Host H] in
theorem calm_of_eq {p q : Plugin H} {t : List Trace} (hphase : q.phase = p.phase)
    (hcalls : Trace.runtimeCalls t = []) : Calm p t q :=
  ⟨hphase, fun call hcall => by simp [hcalls] at hcall⟩

instance : Op.Chains (Calm (H := H)) where
  nil _ := calm_of_eq rfl rfl
  append {p q s t u} h h' := by
    refine ⟨h'.phase.trans h.phase, fun call hcall => ?_⟩
    rw [Trace.runtimeCalls_append] at hcall
    rcases List.mem_append.mp hcall with hcall | hcall
    · exact h.calls call hcall
    · rw [← h.phase]
      exact h'.calls call hcall

theorem calm_register (registration : Registration) :
    (register registration : Op (Plugin H) Unit).Yields Calm := by
  refine yields_whileRegistering_bind _ fun p hphase => ⟨rfl, fun call hcall => ⟨hphase, ?_⟩⟩
  exact Trace.registered_of_ofRegistration
    (Registry.grows_register registration p.registry).traces hcall

theorem calm_load (access : Access) (path : Path) :
    (load access path : Op (Plugin H) Bool).Yields Calm := by
  refine yields_whileRegistering_bind _ fun p hphase => ?_
  have hload := loading_loadOnce access path p
  unfold Op.YieldsAt
  generalize loadOnce access path p = o at hload
  cases hload with
  | unresolved | duplicate | unopened => exact calm_of_eq rfl rfl
  | @opened location _ _ script _ =>
    refine ⟨rfl, fun call hcall => ⟨hphase, ?_⟩⟩
    rw [runtimeCalls_entered] at hcall
    exact Trace.registered_of_ofRegistration (Registry.grows_run script p.registry).traces hcall

theorem admits_calm : Admits (Calm (H := H)) where
  log _ _ _ := calm_of_eq rfl rfl
  searchPath _ _ := calm_of_eq rfl rfl
  load := calm_load

theorem calm_toggle (tag : Tag) (enable : Bool) :
    (toggle tag enable : Op (Plugin H) Bool).Yields Calm :=
  fun p => calm_of_eq rfl (Registry.rests_toggle tag enable p.registry).calls

theorem calm_toggleValue (value : EnumValue) (enable : Bool) :
    (toggleValue value enable : Op (Plugin H) Bool).Yields Calm := by
  have hrests : (Registry.toggleValue value enable : Op (Registry H) Bool).Yields Registry.Rests := by
    refine (Op.yields_read _).bind fun tag => ?_
    cases tag with
    | none => exact Op.yields_pure false
    | some tag => exact Registry.rests_toggle tag enable
  exact fun p => calm_of_eq rfl (hrests p.registry).calls

/-- All calls are calm but the one that ends registration and the one that ends the plugin. -/
theorem calm_call {call : Call} (hafter : call ≠ .afterScripts) (hfinish : call ≠ .finish) :
    (call.op : Op (Plugin H) Unit).Yields Calm := by
  cases call with
  | register registration => exact calm_register registration
  | load access path => exact (calm_load access path).map _
  | loadFile access path => exact (admits_calm.loadFile access path).map _
  | addLibraryPaths dirs => exact admits_calm.addLibraryPaths dirs
  | loadBelow env paths => exact admits_calm.loadBelow env paths
  | discover env => exact admits_calm.discover env
  | beforeScripts env => exact admits_calm.beforeScripts env
  | afterScripts => contradiction
  | toggle tag enable => exact (calm_toggle tag enable).map _
  | toggleValue value enable => exact (calm_toggleValue value enable).map _
  | finish => contradiction

/-- How the attempt to end registration can go: whether it succeeds, the phase after it, and its
calls to the runtime. -/
inductive Attempt : Phase → Bool → Phase → List RuntimeCall → Prop
  | closed {phase : Phase} : phase ≠ .registering → Attempt phase false phase []
  | notStarted : Attempt .registering false .registering [.startFailed]
  /-- The runtime starts, and the resolution fails. -/
  | notResolved : Attempt .registering false .registering [.started]
  | resolved : Attempt .registering true .resolved [.started]

/-- The attempt, begun in a phase, came to this outcome. -/
def Attempted (phase : Phase) (o : Outcome (Plugin H) Unit) : Prop :=
  Attempt phase o.result.isOk o.state.phase (Trace.runtimeCalls o.trace)

omit [Host H] in
/-- What succeeds without a call to the runtime does not matter. -/
theorem Attempted.bind {α : Type} {phase : Phase} {x : Op (Plugin H) α} {p : Plugin H} {a : α}
    {f : α → Op (Plugin H) Unit} (h : Attempted phase (f a (x p).state))
    (hok : (x p).result = .ok a) (hcalls : Trace.runtimeCalls (x p).trace = []) :
    Attempted phase ((x >>= f) p) := by
  rw [Op.bind_of_ok hok, Attempted, Trace.runtimeCalls_append, hcalls]
  exact h

/-- What is left of the attempt once the runtime is started. -/
def resolution (parsers : List Parser) : Op (Plugin H) Unit := do
  onRegistry (Registry.resolve parsers)
  .update fun p => { p with phase := .resolved }
  .debug "Done with post-script initialization"

theorem attempt_resolution {p : Plugin H} (hphase : p.phase = .registering) (parsers : List Parser) :
    let o := resolution parsers p
    Attempt .registering o.result.isOk o.state.phase (.started :: Trace.runtimeCalls o.trace) := by
  intro o
  have hcalls := (Registry.quiet_resolve parsers p.registry).calls
  cases hresult : (Registry.resolve parsers p.registry).result with
  | error fault =>
    have hout : o = _ := Op.bind_of_error (x := onRegistry (Registry.resolve parsers)) hresult _
    have hnone : Trace.runtimeCalls o.trace = [] := by rw [hout]; exact hcalls
    have hsame : o.state.phase = .registering := by rw [hout]; exact hphase
    rw [hnone, hsame, hout]
    exact .notResolved
  | ok =>
    have hout : o = _ := Op.bind_of_ok (x := onRegistry (Registry.resolve parsers)) hresult _
    have hnone : Trace.runtimeCalls o.trace = [] := by
      rw [hout, Trace.runtimeCalls_append, onRegistry, Op.within_apply, hcalls]
      rfl
    rw [hnone, hout]
    exact .resolved

/-- The runtime is called once, whether it starts or not. -/
theorem attempted_start {p : Plugin H} (hphase : p.phase = .registering) :
    Attempted .registering ((do
      onRegistry startRuntime
      resolution (← .read (·.registry.runtime.parsers)) : Op (Plugin H) Unit) p) := by
  have hstart := startRuntime_apply p.registry
  unfold Attempted
  cases hfailures : p.registry.runtime.failures with
  | cons failure failures =>
    simp only [hfailures] at hstart
    have hresult : (onRegistry startRuntime p).result = .error (.runtimeNotStarted failure) := by
      rw [onRegistry, Op.within_apply, hstart]
    rw [Op.bind_of_error hresult, onRegistry, Op.within_apply, hstart, hphase]
    exact .notStarted
  | nil =>
    simp only [hfailures] at hstart
    have hresult : (onRegistry startRuntime p).result = .ok () := by
      rw [onRegistry, Op.within_apply, hstart]
    rw [Op.bind_of_ok hresult, onRegistry, Op.within_apply, hstart]
    let q : Plugin H := { p with
      registry := { p.registry with
        runtime := ⟨p.registry.runtime.parsers, some (runtimeOptions p.registry.host), []⟩ } }
    exact attempt_resolution (p := q) hphase q.registry.runtime.parsers

theorem attempted_afterScripts (p : Plugin H) : Attempted p.phase (afterScripts p) := by
  by_cases hphase : p.phase = .registering
  · have hopen := whileRegistering_of_registering hphase .finishRegistration
    have hstate : (whileRegistering .finishRegistration p).state = p := by rw [hopen]
    refine Attempted.bind ?_ (congrArg Outcome.result hopen) (by rw [hopen]; rfl)
    refine Attempted.bind ?_ rfl rfl
    refine Attempted.bind ?_ (Registry.result_assignPlaceholders _)
      (Registry.quiet_assignPlaceholders _).calls
    refine Attempted.bind ?_ rfl rfl
    rw [hstate, hphase]
    exact attempted_start (p := (onRegistry Registry.assignPlaceholders p).state) hphase
  · have hout : afterScripts p = ⟨.error (.registrationClosed .finishRegistration), p, []⟩ := by
      rw [afterScripts, Op.bind_apply, whileRegistering_of_ne hphase, Op.andThen_error]
    rw [hout]
    exact .closed hphase

omit [Host H] in
/-- The end of the plugin stops the runtime, unless that was done before. -/
theorem finish_apply (p : Plugin H) : (finish p).result = .ok () ∧ (finish p).state.phase = .done ∧
    Trace.runtimeCalls (finish p).trace = if p.phase = .done then [] else [.stopped] := by
  by_cases hdone : p.phase = .done
  · simp [finish, hdone, Trace.runtimeCalls]
  · simp [finish, hdone]
    rfl

end Plugin

end TrafficAnalyzers
