import TrafficAnalyzers.Proofs.Lifecycle.Phases
import TrafficAnalyzers.Proofs.Resolution.Failure
/-!
The calls to the parser runtime in any sequence of calls to the plugin and over any host. Main
statement: parsers and attempts to end registration that fail come first, then an attempt that
succeeds, at most one, and then a stop, at most one. An attempt that fails may have started the
runtime all the same.
-/
namespace TrafficAnalyzers

variable {H : Type} [Host H]

/-- A call to the runtime, and whether the call to the plugin that made it succeeded. -/
structure Dealing where
  call : RuntimeCall
  succeeded : Bool
  deriving DecidableEq, Repr

/-- Before registration has ended: a parser is handed over, or an attempt to end registration fails,
because the runtime does not start or because the resolution after that fails. -/
def Dealing.Preliminary (d : Dealing) : Prop :=
  (∃ parser, d.call = .registered parser) ∨
    (d.call = .startFailed ∨ d.call = .started) ∧ d.succeeded = false

/-- What the runtime was called for up to a phase. -/
inductive Dealt : Phase → List Dealing → Prop
  | registering {dealings : List Dealing} (h : ∀ d ∈ dealings, d.Preliminary) :
      Dealt .registering dealings
  | resolved {dealings : List Dealing} (h : ∀ d ∈ dealings, d.Preliminary) :
      Dealt .resolved (dealings ++ [⟨.started, true⟩])
  | done {phase : Phase} {dealings : List Dealing} (hphase : phase ≠ .done)
      (h : Dealt phase dealings) : Dealt .done (dealings ++ [⟨.stopped, true⟩])

/-- The calls to the runtime that a call makes. -/
def Call.dealings (call : Call) (p : Plugin H) : List Dealing :=
  (Trace.runtimeCalls (call.op p).trace).map (⟨·, (call.op p).result.isOk⟩)

namespace Plugin

/-- The calls to the runtime that calls make, one after the other. -/
def dealings : List Call → Plugin H → List Dealing
  | [], _ => []
  | call :: calls, p => call.dealings p ++ dealings calls (call.op p).state

/-- The attempt to end registration calls the runtime during registration only. -/
theorem dealt_afterScripts {p : Plugin H} {given : List Dealing} (h : Dealt p.phase given) :
    Dealt (Call.afterScripts.op p).state.phase (given ++ Call.afterScripts.dealings p) := by
  have hattempt := attempted_afterScripts p
  rw [Attempted] at hattempt
  unfold Call.dealings
  change Dealt (afterScripts p).state.phase (given ++
    (Trace.runtimeCalls (afterScripts p).trace).map (⟨·, (afterScripts p).result.isOk⟩))
  generalize (afterScripts p).result.isOk = succeeded at hattempt ⊢
  generalize (afterScripts p).state.phase = phase at hattempt ⊢
  generalize Trace.runtimeCalls (afterScripts p).trace = calls at hattempt ⊢
  generalize p.phase = before at h hattempt
  cases hattempt with
  | closed =>
    rw [List.map_nil, List.append_nil]
    exact h
  | notStarted =>
    cases h with
    | registering hgiven =>
      refine .registering (List.forall_mem_append.mpr ⟨hgiven, ?_⟩)
      simp [Dealing.Preliminary]
  | notResolved =>
    cases h with
    | registering hgiven =>
      refine .registering (List.forall_mem_append.mpr ⟨hgiven, ?_⟩)
      simp [Dealing.Preliminary]
  | resolved =>
    cases h with
    | registering hgiven => exact .resolved hgiven

/-- The plugin is stopped once. -/
theorem dealt_finish {p : Plugin H} {given : List Dealing} (h : Dealt p.phase given) :
    Dealt (Call.finish.op p).state.phase (given ++ Call.finish.dealings p) := by
  obtain ⟨hok, hphase, hcalls⟩ := finish_apply p
  unfold Call.dealings
  change Dealt (finish p).state.phase (given ++
    (Trace.runtimeCalls (finish p).trace).map (⟨·, (finish p).result.isOk⟩))
  rw [hok, hphase, hcalls]
  by_cases hdone : p.phase = .done
  · rw [if_pos hdone, List.map_nil, List.append_nil, ← hdone]
    exact h
  · rw [if_neg hdone]
    exact .done hdone h

/-- Calls that leave the phase as it is hand parsers over during registration. -/
theorem dealt_calm {call : Call} {p : Plugin H} {given : List Dealing}
    (hcalm : call.op.YieldsAt Calm p) (h : Dealt p.phase given) :
    Dealt (call.op p).state.phase (given ++ call.dealings p) := by
  have hcalls := hcalm.calls
  rw [hcalm.phase, Call.dealings]
  cases hlist : Trace.runtimeCalls (call.op p).trace with
  | nil =>
    rw [List.map_nil, List.append_nil]
    exact h
  | cons first rest =>
    rw [← hlist]
    have hphase : p.phase = .registering := (hcalls first (hlist ▸ List.mem_cons_self)).1
    rw [hphase] at h ⊢
    cases h with
    | registering hgiven =>
      refine .registering (List.forall_mem_append.mpr ⟨hgiven, ?_⟩)
      intro d hd
      obtain ⟨runtimeCall, hmem, rfl⟩ := List.mem_map.mp hd
      exact .inl (hcalls runtimeCall hmem).2

/-- Every call goes on as it should. -/
theorem dealt_call (call : Call) {p : Plugin H} {given : List Dealing} (h : Dealt p.phase given) :
    Dealt (call.op p).state.phase (given ++ call.dealings p) := by
  by_cases hafter : call = .afterScripts
  · subst hafter
    exact dealt_afterScripts h
  by_cases hfinish : call = .finish
  · subst hfinish
    exact dealt_finish h
  · exact dealt_calm (calm_call hafter hfinish p) h

theorem dealt_course (calls : List Call) {p : Plugin H} {given : List Dealing}
    (h : Dealt p.phase given) : Dealt (p.course calls).phase (given ++ p.dealings calls) := by
  induction calls generalizing p given with
  | nil =>
    rw [dealings, List.append_nil]
    exact h
  | cons call calls ih =>
    rw [dealings, ← List.append_assoc]
    exact ih (dealt_call call h)

/-- As long as the plugin is registering, parsers reach the runtime, also if it has been started. -/
theorem parsers_reach_runtime {p : Plugin H} (hphase : p.phase = .registering) (parser : Parser) :
    (Call.register (.parser parser)).dealings p = [⟨.registered parser.name, true⟩] := by
  have hopen := whileRegistering_of_registering hphase .registerParser
  have hout : (Call.register (.parser parser)).op p =
      onRegistry (Registry.registerParser parser) p := by
    change (do whileRegistering .registerParser; onRegistry (Registry.registerParser parser) :
      Op (Plugin H) Unit) p = _
    rw [Op.bind_of_ok (congrArg Outcome.result hopen), hopen]
    rfl
  rw [Call.dealings, hout]
  rfl

/-- From a new plugin on, the runtime gets parsers and is called by attempts that fail, then by one
that succeeds, and is stopped at the end. As the plugin goes on registering after an attempt that
fails, parsers and further starts reach a runtime that such an attempt has started. -/
theorem runtime_called_in_order (calls : List Call) {p : Plugin H} (hp : p.phase = .registering) :
    let q := p.course calls
    Dealt q.phase (p.dealings calls) ∧
      (q.phase = .registering → ∀ parser,
        (Call.register (.parser parser)).dealings q = [⟨.registered parser.name, true⟩]) := by
  intro q
  have hnone : Dealt p.phase [] := hp ▸ .registering nofun
  exact ⟨dealt_course calls hnone, parsers_reach_runtime⟩

/-- After a resolution that fails, a parser reaches the started runtime, and it is started again. -/
theorem lacking_started_twice :
    lacking.dealings [.afterScripts, .register (.parser ⟨"Missing", [], []⟩), .afterScripts, .finish] =
      [⟨.started, false⟩, ⟨.registered "Missing", true⟩, ⟨.started, true⟩, ⟨.stopped, true⟩] ∧
    Dealt .done [⟨.started, false⟩, ⟨.registered "Missing", true⟩, ⟨.started, true⟩,
      ⟨.stopped, true⟩] := by
  have hdealings : lacking.dealings
      [.afterScripts, .register (.parser ⟨"Missing", [], []⟩), .afterScripts, .finish] =
      [⟨.started, false⟩, ⟨.registered "Missing", true⟩, ⟨.started, true⟩, ⟨.stopped, true⟩] := by
    decide +kernel
  have horder := (runtime_called_in_order
    [.afterScripts, .register (.parser ⟨"Missing", [], []⟩), .afterScripts, .finish]
    (show lacking.phase = .registering by decide +kernel)).1
  rw [hdealings] at horder
  exact ⟨hdealings, horder⟩

end Plugin

end TrafficAnalyzers
