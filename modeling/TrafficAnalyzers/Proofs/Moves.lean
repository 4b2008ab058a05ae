import TrafficAnalyzers.Plugin
import TrafficAnalyzers.Proofs.Traces
/-!
Calls to a plugin, over any host, as sequences of moves. Main statement: whether it succeeds or
fails, a call does nothing to the plugin but make moves, each of them in the phase that it belongs
to, and leaves no traces but theirs.
-/
namespace TrafficAnalyzers.Plugin

variable {H : Type} [Host H]

/-- A move of a plugin, with the traces that it leaves. -/
inductive Move : Plugin H → List Trace → Plugin H → Prop
  | log (level : Level) (text : String) (p : Plugin H) : Move p [.log level text] p
  | searchPath (dir : String) (p : Plugin H) :
      Move p [] (onRegistry (Registry.changeHost (Host.addSearchPath dir)) p).state
  | register (registration : Registration) {p : Plugin H} (hphase : p.phase = .registering) :
      Move p (onRegistry (Registry.register registration) p).trace
        (onRegistry (Registry.register registration) p).state
  | load (access : Access) (path : Path) {p : Plugin H} (hphase : p.phase = .registering) :
      Move p (loadOnce access path p).trace (loadOnce access path p).state
  | placeholders {p : Plugin H} (hphase : p.phase = .registering) :
      Move p (onRegistry Registry.assignPlaceholders p).trace
        (onRegistry Registry.assignPlaceholders p).state
  /-- The runtime starts, or refuses to. -/
  | start {p : Plugin H} (hphase : p.phase = .registering) :
      Move p (onRegistry startRuntime p).trace (onRegistry startRuntime p).state
  /-- A resolution that stops at a fault does not end the phase. -/
  | stopResolving {p : Plugin H} (hphase : p.phase = .registering)
      (hstarted : p.registry.runtime.options ≠ none) {fault : Fault}
      (hfault : (Registry.resolve p.registry.runtime.parsers p.registry).result = .error fault) :
      Move p (onRegistry (Registry.resolve p.registry.runtime.parsers) p).trace
        (onRegistry (Registry.resolve p.registry.runtime.parsers) p).state
  | resolve {p : Plugin H} (hphase : p.phase = .registering)
      (hstarted : p.registry.runtime.options ≠ none)
      (hok : (Registry.resolve p.registry.runtime.parsers p.registry).result = .ok ()) :
      Move p (onRegistry (Registry.resolve p.registry.runtime.parsers) p).trace
        { (onRegistry (Registry.resolve p.registry.runtime.parsers) p).state with phase := .resolved }
  | toggle (tag : Tag) (enable : Bool) (p : Plugin H) :
      Move p (onRegistry (Registry.toggle tag enable) p).trace
        (onRegistry (Registry.toggle tag enable) p).state
  | stop {p : Plugin H} (hphase : p.phase ≠ .done) :
      Move p [.runtime .stopped] { p with
        registry := { p.registry with runtime := p.registry.runtime.stop }
        phase := .done }

/-- Any number of moves. -/
inductive Moves : Plugin H → List Trace → Plugin H → Prop
  | nil (p : Plugin H) : Moves p [] p
  | cons {p q s : Plugin H} {t u : List Trace} : Move p t q → Moves q u s → Moves p (t ++ u) s

theorem Move.moves {p q : Plugin H} {t : List Trace} (h : Move p t q) : Moves p t q := by
  simpa using Moves.cons h (.nil q)

theorem Moves.trans {p q s : Plugin H} {t u : List Trace} (h : Moves p t q) (h' : Moves q u s) :
    Moves p (t ++ u) s := by
  induction h with
  | nil => exact h'
  | cons hmove _ ih =>
    rw [List.append_assoc]
    exact .cons hmove (ih h')

instance : Op.Chains (Moves (H := H)) where
  nil := .nil
  append := .trans

/-- Moves follow a relation between what `f` sees of the plugin if every move does. -/
theorem Moves.follows {α : Type} {R : α → α → Prop} [IsPreorder α R] (f : Plugin H → α)
    (hmove : ∀ {p q t}, Move p t q → R (f p) (f q)) {p q : Plugin H} {t : List Trace}
    (h : Moves p t q) : R (f p) (f q) := by
  induction h with
  | nil p => exact refl (f p)
  | cons hfirst _ ih => exact IsTrans.trans (r := R) _ _ _ (hmove hfirst) ih

/-- What every move keeps, together with the traces so far, moves keep. -/
theorem Moves.keep {I : List Trace → Plugin H → Prop}
    (hI : ∀ {t p u q}, I t p → Move p u q → I (t ++ u) q) {p q : Plugin H} {t u : List Trace}
    (hp : I t p) (h : Moves p u q) : I (t ++ u) q := by
  induction h generalizing t with
  | nil => simpa using hp
  | cons hmove _ ih =>
    rw [← List.append_assoc]
    exact ih (hI hp hmove)

theorem moves_log (level : Level) (text : String) :
    (Op.emit (.log level text) : Op (Plugin H) Unit).Yields Moves :=
  fun p => (Move.log level text p).moves

omit [Host H] in
theorem whileRegistering_of_registering {p : Plugin H} (h : p.phase = .registering)
    (operation : Operation) : whileRegistering operation p = ⟨.ok (), p, []⟩ := by
  simp [whileRegistering, h]

omit [Host H] in
/-- What is done only while registering is refused in other phases, without a trace. -/
theorem whileRegistering_of_ne {p : Plugin H} (h : p.phase ≠ .registering)
    (operation : Operation) :
    whileRegistering operation p = ⟨.error (.registrationClosed operation), p, []⟩ := by
  simp [whileRegistering, h]

omit [Host H] in
theorem yields_whileRegistering_bind {α : Type} {R : Plugin H → List Trace → Plugin H → Prop}
    [Op.Chains R] (operation : Operation) {x : Op (Plugin H) α}
    (hx : ∀ p, p.phase = .registering → x.YieldsAt R p) :
    (do whileRegistering operation; x : Op (Plugin H) α).Yields R := by
  intro p
  by_cases hphase : p.phase = .registering
  · have hopen := whileRegistering_of_registering hphase operation
    refine Op.YieldsAt.bind ?_ fun _ _ => ?_ <;> rw [Op.YieldsAt, hopen]
    · exact Op.Chains.nil p
    · exact hx p hphase
  · have hclosed := whileRegistering_of_ne hphase operation
    refine Op.YieldsAt.bind ?_ fun _ hok => ?_
    · rw [Op.YieldsAt, hclosed]
      exact Op.Chains.nil p
    · rw [hclosed] at hok
      contradiction

theorem moves_register (registration : Registration) :
    (register registration : Op (Plugin H) Unit).Yields Moves :=
  yields_whileRegistering_bind _ fun _ hphase => (Move.register registration hphase).moves

theorem load_of_registering {p : Plugin H} (hphase : p.phase = .registering) (access : Access)
    (path : Path) : load access path p = loadOnce access path p := by
  rw [load, Op.bind_apply, whileRegistering_of_registering hphase]
  rfl

theorem moves_load (access : Access) (path : Path) :
    (load access path : Op (Plugin H) Bool).Yields Moves :=
  yields_whileRegistering_bind _ fun _ hphase => (Move.load access path hphase).moves

section Composed

variable {R : Plugin H → List Trace → Plugin H → Prop}

/-- What holds of messages, of changes to the search path and of loads. -/
structure Admits (R : Plugin H → List Trace → Plugin H → Prop) : Prop where
  log (level : Level) (text : String) : (Op.emit (.log level text) : Op (Plugin H) Unit).Yields R
  searchPath (dir : String) :
    (onRegistry (Registry.changeHost (Host.addSearchPath dir)) : Op (Plugin H) Unit).Yields R
  load (access : Access) (path : Path) : (load access path : Op (Plugin H) Bool).Yields R

variable [Op.Chains R] (h : Admits R)

include h

theorem Admits.addLibraryPaths (dirs : String) :
    (addLibraryPaths dirs : Op (Plugin H) Unit).Yields R :=
  Op.Yields.forM fun dir _ => h.searchPath dir

theorem Admits.loadFile (access : Access) (path : Path) :
    (loadFile access path : Op (Plugin H) FileOutcome).Yields R := by
  refine (Op.yields_read _).bind fun settings => ?_
  split
  · exact (h.load access path).bind fun _ => Op.yields_pure FileOutcome.module
  · split
    · exact Op.yields_raise _
    · exact Op.yields_pure FileOutcome.notOurs

theorem Admits.search (fs : FileSystem) (extension paths : String) :
    (Discovery.search fs extension paths : Op (Plugin H) (List Path)).Yields R := by
  refine Op.Yields.map (Op.Yields.mapM (fun dir => ?_) _) _
  unfold Discovery.searchDirectory
  dsimp only
  split
  · refine (h.log .debug _).bind fun _ => Op.Yields.bind ?_ fun _ => Op.yields_pure _
    exact Op.Yields.forM fun path _ => h.log .warn _
  · exact (h.log .debug _).bind fun _ => Op.yields_pure _

theorem Admits.loadBelow (env : Environment) (paths : String) :
    (loadBelow env paths : Op (Plugin H) Unit).Yields R :=
  (Op.yields_read _).bind fun extension =>
    (h.search env.files extension paths).bind fun _ => Op.Yields.forM fun path _ =>
      (h.load env.access path).bind fun _ => Op.yields_pure ()

theorem Admits.discover (env : Environment) : (discover env : Op (Plugin H) Unit).Yields R :=
  (Op.yields_read _).bind fun _ => Op.Yields.forM fun paths _ => h.loadBelow env paths

/-- It holds of all that is done before the host reads its scripts. -/
theorem Admits.beforeScripts (env : Environment) :
    (beforeScripts env : Op (Plugin H) Unit).Yields R :=
  (h.log .debug _).bind fun _ => (Op.yields_read _).bind fun _ =>
    (Op.Yields.forM fun dirs _ => h.addLibraryPaths dirs).bind fun _ =>
      (Op.yields_read _).bind fun _ => (Op.yields_ofExcept _).bind fun _ =>
        (h.addLibraryPaths _).bind fun _ => (h.discover env).bind fun _ =>
          h.log .debug _

end Composed

theorem admits_moves : Admits (Moves (H := H)) where
  log := moves_log
  searchPath dir p := (Move.searchPath dir p).moves
  load := moves_load

/-- The runtime starts if no failure is due. -/
theorem startRuntime_apply (r : Registry H) : startRuntime r = match r.runtime.failures with
    | [] => ⟨.ok (), { r with runtime := { r.runtime with options := some (runtimeOptions r.host) } },
        [.runtime .started]⟩
    | failure :: failures =>
      ⟨.error (.runtimeNotStarted failure), { r with runtime := { r.runtime with failures } },
        [.runtime .startFailed]⟩ := by
  obtain ⟨host, analyzers, events, parsers, options, failures⟩ := r
  cases failures <;> rfl

theorem options_of_started {r : Registry H} (hok : (startRuntime r).result = .ok ()) :
    (startRuntime r).state.runtime.options ≠ none := by
  rw [startRuntime_apply] at hok ⊢
  cases hfailures : r.runtime.failures with
  | nil => simp
  | cons failure failures => simp [hfailures] at hok

/-- The end of the second phase, with the runtime started. -/
theorem moves_resolution {p : Plugin H} (hphase : p.phase = .registering)
    (hstarted : p.registry.runtime.options ≠ none) :
    Op.YieldsAt Moves (do
      onRegistry (Registry.resolve p.registry.runtime.parsers)
      .update fun p => { p with phase := .resolved }
      .debug "Done with post-script initialization") p := by
  have happly : onRegistry (Registry.resolve p.registry.runtime.parsers) p =
      ⟨(Registry.resolve p.registry.runtime.parsers p.registry).result,
        (onRegistry (Registry.resolve p.registry.runtime.parsers) p).state,
        (onRegistry (Registry.resolve p.registry.runtime.parsers) p).trace⟩ := rfl
  rw [Op.YieldsAt, Op.bind_apply, happly]
  cases hresult : (Registry.resolve p.registry.runtime.parsers p.registry).result with
  | error fault => exact (Move.stopResolving hphase hstarted hresult).moves
  | ok =>
    exact (Move.resolve hphase hstarted hresult).moves.trans
      (Move.log .debug "Done with post-script initialization" _).moves

theorem moves_afterScripts : (afterScripts : Op (Plugin H) Unit).Yields Moves := by
  apply yields_whileRegistering_bind
  intro p hphase
  refine (moves_log .debug _ p).bind fun _ _ => ?_
  refine Op.YieldsAt.bind (Move.placeholders hphase).moves fun _ _ => ?_
  refine (moves_log .debug _ _).bind fun _ _ => ?_
  let q := (onRegistry Registry.assignPlaceholders p).state
  refine Op.YieldsAt.bind (Move.start (p := q) hphase).moves fun _ hok => ?_
  refine (Op.yields_read _ _).bind fun parsers hparsers => ?_
  obtain rfl := Except.ok.inj hparsers
  exact moves_resolution hphase (options_of_started hok)

theorem moves_toggle (tag : Tag) (enable : Bool) :
    (toggle tag enable : Op (Plugin H) Bool).Yields Moves :=
  fun p => (Move.toggle tag enable p).moves

theorem moves_toggleValue (value : EnumValue) (enable : Bool) :
    (toggleValue value enable : Op (Plugin H) Bool).Yields Moves := by
  intro p
  cases hvalue : Registry.tagOfValue? p.registry.host value with
  | none =>
    have hout : toggleValue value enable p = ⟨.ok false, p, []⟩ := by
      simp [toggleValue, onRegistry, Registry.toggleValue, hvalue]
    rw [Op.YieldsAt, hout]
    exact .nil p
  | some tag =>
    have hout : toggleValue value enable p = onRegistry (Registry.toggle tag enable) p := by
      simp [toggleValue, onRegistry, Registry.toggleValue, hvalue]
    rw [Op.YieldsAt, hout]
    exact (Move.toggle tag enable p).moves

theorem moves_finish : (finish : Op (Plugin H) Unit).Yields Moves := by
  intro p
  refine (Op.yields_read _ p).bind fun phase hphase => ?_
  obtain rfl := Except.ok.inj hphase
  split
  · exact Op.yields_pure () p
  · next hdone =>
    refine (moves_log .debug _ p).bind fun _ _ => ?_
    exact (Move.stop hdone).moves

end TrafficAnalyzers.Plugin
