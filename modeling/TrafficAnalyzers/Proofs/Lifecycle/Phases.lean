import TrafficAnalyzers.Proofs.Lifecycle.Calls
/-!
The phases of a plugin in any sequence of calls and over any host. Main statement: phases only go
forward, registration ends with an attempt that succeeds, and from then on nothing is registered and
nothing that was registered or resolved changes.
-/
namespace TrafficAnalyzers

/-- The order of the phases. -/
def Phase.rank : Phase → Nat
  | .registering => 0
  | .resolved => 1
  | .done => 2

/-- The phase after a call that succeeded or did not. -/
def Call.phaseAfter (call : Call) (succeeded : Bool) (phase : Phase) : Phase :=
  match call with
  | .afterScripts => if succeeded then .resolved else phase
  | .finish => .done
  | _ => phase

namespace Plugin

variable {H : Type} [Host H]

theorem Attempt.phase {phase phase' : Phase} {succeeded : Bool} {calls : List RuntimeCall}
    (h : Attempt phase succeeded phase' calls) :
    phase' = if succeeded then .resolved else phase := by
  cases h <;> rfl

/-- Registration ends where it has not ended before. -/
theorem Attempt.registering {phase phase' : Phase} {calls : List RuntimeCall}
    (h : Attempt phase true phase' calls) : phase = .registering := by
  cases h
  rfl

/-- What a call does to the phase. -/
theorem phase_call (call : Call) (p : Plugin H) :
    (call.op p).state.phase = call.phaseAfter (call.op p).result.isOk p.phase := by
  by_cases hafter : call = .afterScripts
  · subst hafter
    exact Attempt.phase (attempted_afterScripts p)
  by_cases hfinish : call = .finish
  · subst hfinish
    exact (finish_apply p).2.1
  · have hcalm := (calm_call hafter hfinish p).phase
    rw [hcalm]
    cases call <;> first | rfl | contradiction

/-- No call takes the plugin back to an earlier phase. -/
theorem rank_call (call : Call) (p : Plugin H) : p.phase.rank ≤ (call.op p).state.phase.rank := by
  have hattempt := attempted_afterScripts p
  rw [phase_call]
  cases call with
  | afterScripts =>
    change _ ≤ (if (afterScripts p).result.isOk then Phase.resolved else p.phase).rank
    rw [Attempted] at hattempt
    cases hok : (afterScripts p).result.isOk with
    | false => exact Nat.le_refl _
    | true =>
      rw [hok] at hattempt
      rw [hattempt.registering]
      exact Nat.zero_le _
  | finish =>
    change _ ≤ Phase.done.rank
    cases p.phase <;> simp [Phase.rank]
  | _ => exact Nat.le_refl _

/-- The plugin after calls, in their order. -/
def course : List Call → Plugin H → Plugin H
  | [], p => p
  | call :: calls, p => course calls (call.op p).state

theorem rank_course (calls : List Call) (p : Plugin H) :
    p.phase.rank ≤ (p.course calls).phase.rank := by
  induction calls generalizing p with
  | nil => exact Nat.le_refl _
  | cons call calls ih => exact Nat.le_trans (rank_call call p) (ih (call.op p).state)

/-- The parsers are resolved only if an attempt to end registration succeeded. -/
theorem resolved_course {calls : List Call} {p : Plugin H}
    (h : (p.course calls).phase = .resolved) : p.phase = .resolved ∨
      ∃ before after, calls = before ++ .afterScripts :: after ∧
        (afterScripts (p.course before)).result = .ok () := by
  induction calls generalizing p with
  | nil => exact .inl h
  | cons call calls ih =>
    rcases ih h with hphase | ⟨before, after, rfl, hok⟩
    · have hcall := phase_call call p
      rw [hphase] at hcall
      cases call with
      | afterScripts =>
        change _ = if (afterScripts p).result.isOk then Phase.resolved else p.phase at hcall
        cases hresult : (afterScripts p).result with
        | ok => exact .inr ⟨[], calls, rfl, hresult⟩
        | error fault =>
          rw [hresult] at hcall
          exact .inl hcall.symm
      | finish => contradiction
      | _ => exact .inl hcall.symm
    · exact .inr ⟨call :: before, after, rfl, hok⟩

/-- An operation is refused, and nothing happens. -/
def Refuses {α : Type} (p : Plugin H) (operation : Operation) (x : Op (Plugin H) α) : Prop :=
  x p = ⟨.error (.registrationClosed operation), p, []⟩

/-- Whatever would register something is refused, and so is another attempt to end registration. -/
structure Closed (p : Plugin H) : Prop where
  register (registration : Registration) :
    p.Refuses (operationOf registration) (register registration)
  load (access : Access) (path : Path) : p.Refuses .loadModule (load access path)
  loadFile (access : Access) (path : Path) (hmodule : p.settings.isModuleFile path = true) :
    p.Refuses .loadModule (loadFile access path)
  afterScripts : p.Refuses .finishRegistration afterScripts

omit [Host H] in
theorem refuses_bind {α : Type} {p : Plugin H} (hphase : p.phase ≠ .registering)
    (operation : Operation) (x : Op (Plugin H) α) :
    p.Refuses operation (do whileRegistering operation; x) := by
  rw [Refuses, Op.bind_apply, whileRegistering_of_ne hphase, Op.andThen_error]

theorem closed_of_phase {p : Plugin H} (hphase : p.phase ≠ .registering) : p.Closed where
  register _ := refuses_bind hphase _ _
  load _ _ := refuses_bind hphase _ _
  loadFile access path hmodule := by
    have hload : p.Refuses .loadModule (load access path) := refuses_bind hphase _ _
    rw [Refuses] at hload ⊢
    simp [loadFile, hmodule, hload]
  afterScripts := refuses_bind hphase _ _

/-- What was registered and resolved in `p` is the same in `q`. -/
structure Frozen (p q : Plugin H) : Prop where
  analyzers : q.registry.analyzers = p.registry.analyzers
  events : q.registry.events = p.registry.events
  parsers : q.registry.runtime.parsers = p.registry.runtime.parsers
  modules : q.modules = p.modules

omit [Host H] in
theorem Frozen.trans {p q s : Plugin H} (h : Frozen p q) (h' : Frozen q s) : Frozen p s :=
  ⟨h'.analyzers.trans h.analyzers, h'.events.trans h.events, h'.parsers.trans h.parsers,
    h'.modules.trans h.modules⟩

/-- Once registration has ended, every move keeps all that was registered. -/
theorem Move.frozen {p q : Plugin H} {t : List Trace} (h : Move p t q)
    (hphase : p.phase ≠ .registering) : q.phase ≠ .registering ∧ Frozen p q := by
  cases h with
  | log | searchPath => exact ⟨hphase, rfl, rfl, rfl, rfl⟩
  | register _ hopen | load _ _ hopen | placeholders hopen | start hopen
  | stopResolving hopen | resolve hopen => exact absurd hopen hphase
  | toggle tag enable =>
    have hrests := Registry.rests_toggle tag enable p.registry
    exact ⟨hphase, hrests.analyzers, hrests.events, congrArg _ hrests.runtime, rfl⟩
  | stop => exact ⟨nofun, rfl, rfl, rfl, rfl⟩

theorem frozen_call (call : Call) {p : Plugin H} (hphase : p.phase ≠ .registering) :
    (call.op p).state.phase ≠ .registering ∧ Frozen p (call.op p).state := by
  have hstart : p.phase ≠ .registering ∧ Frozen p p := ⟨hphase, rfl, rfl, rfl, rfl⟩
  refine Moves.keep (I := fun _ q => q.phase ≠ .registering ∧ Frozen p q) (t := []) ?_ hstart
    (call.moves p)
  intro t q u s hq hmove
  have hmoved := hmove.frozen hq.1
  exact ⟨hmoved.1, hq.2.trans hmoved.2⟩

theorem frozen_course (calls : List Call) {p : Plugin H} (hphase : p.phase ≠ .registering) :
    Frozen p (p.course calls) := by
  induction calls generalizing p with
  | nil => exact ⟨rfl, rfl, rfl, rfl⟩
  | cons call calls ih =>
    have hcall := frozen_call call hphase
    exact hcall.2.trans (ih hcall.1)

/-- Phases go forward only, and resolution comes of a successful attempt to end registration. After
registration, whatever would register something is refused and changes nothing, and no call changes
tables, events, modules or the parsers of the runtime. -/
theorem phases_in_order (calls : List Call) (p : Plugin H) :
    let q := p.course calls
    p.phase.rank ≤ q.phase.rank ∧
      (q.phase = .resolved → p.phase = .resolved ∨ ∃ before after,
        calls = before ++ .afterScripts :: after ∧
          (afterScripts (p.course before)).result = .ok ()) ∧
      (∀ call : Call, (call.op q).state.phase = call.phaseAfter (call.op q).result.isOk q.phase) ∧
      (q.phase ≠ .registering → q.Closed ∧ ∀ later, q.Frozen (q.course later)) := by
  intro q
  refine ⟨rank_course calls p, resolved_course, fun call => phase_call call q, fun hphase => ?_⟩
  exact ⟨closed_of_phase hphase, fun later => frozen_course later hphase⟩

/-- An analyzer with its parser, and the end of registration. -/
def regular : List Call :=
  [.register (.protocol ⟨"P", .tcp, [⟨80, .tcp⟩], "", "Parser", ""⟩),
    .register (.parser ⟨"Parser", [], []⟩), .afterScripts]

/-- The event that comes too late is refused; toggles and the end of the plugin change no table. -/
theorem regular_closed :
    let q := (bare (.new 0 "" true)).course regular
    q.phase = .resolved ∧ q.Refuses .registerEvent (register (.event "Late::event")) ∧
      q.Frozen (q.course [.toggle ⟨.protocol, 1⟩ false, .register (.event "Late::event"), .finish]) := by
  intro q
  have hphase : q.phase = .resolved := by decide +kernel
  have horder := (phases_in_order regular (bare (.new 0 "" true))).2.2.2 (by decide +kernel)
  exact ⟨hphase, horder.1.register (.event "Late::event"), horder.2 _⟩

end Plugin

end TrafficAnalyzers
