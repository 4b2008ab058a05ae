import TrafficAnalyzers.Proofs.Moves
import TrafficAnalyzers.Proofs.Roster.Resolution
import TrafficAnalyzers.Proofs.Roster.Toggle
/-!
Sessions of a plugin over a host in memory: a new plugin over a host that may have analyzers of its
own, and then calls in any order. Main statement: every call leads the roster along, whether it
succeeds or fails.
-/
namespace TrafficAnalyzers

/-- A call to the plugin. -/
inductive Call where
  | register (registration : Registration)
  | load (access : Access) (path : Path)
  | loadFile (access : Access) (path : Path)
  | addLibraryPaths (dirs : String)
  | loadBelow (env : Environment) (paths : String)
  | discover (env : Environment)
  | beforeScripts (env : Environment)
  | afterScripts
  | toggle (tag : Tag) (enable : Bool)
  | toggleValue (value : EnumValue) (enable : Bool)
  | finish

/-- The plugin that a call leaves, also one that fails. -/
def Call.leave : Call → Plugin LocalHost → Plugin LocalHost
  | register registration, p => (Plugin.register registration p).state
  | load access path, p => (Plugin.load access path p).state
  | loadFile access path, p => (Plugin.loadFile access path p).state
  | addLibraryPaths dirs, p => (Plugin.addLibraryPaths dirs p).state
  | loadBelow env paths, p => (Plugin.loadBelow env paths p).state
  | discover env, p => (Plugin.discover env p).state
  | beforeScripts env, p => (Plugin.beforeScripts env p).state
  | afterScripts, p => (Plugin.afterScripts p).state
  | toggle tag enable, p => (Plugin.toggle tag enable p).state
  | toggleValue value enable, p => (Plugin.toggleValue value enable p).state
  | finish, p => (Plugin.finish p).state

/-- The call as an operation, without its answer. -/
def Call.op {H : Type} [Host H] : Call → Op (Plugin H) Unit
  | register registration => Plugin.register registration
  | load access path => (fun _ => ()) <$> Plugin.load access path
  | loadFile access path => (fun _ => ()) <$> Plugin.loadFile access path
  | addLibraryPaths dirs => Plugin.addLibraryPaths dirs
  | loadBelow env paths => Plugin.loadBelow env paths
  | discover env => Plugin.discover env
  | beforeScripts env => Plugin.beforeScripts env
  | afterScripts => Plugin.afterScripts
  | toggle tag enable => (fun _ => ()) <$> Plugin.toggle tag enable
  | toggleValue value enable => (fun _ => ()) <$> Plugin.toggleValue value enable
  | finish => Plugin.finish

/-- A call does nothing but make moves. -/
theorem Call.moves {H : Type} [Host H] (call : Call) :
    (call.op : Op (Plugin H) Unit).Yields Plugin.Moves := by
  cases call with
  | register registration => exact Plugin.moves_register registration
  | load access path => exact (Plugin.moves_load access path).map _
  | loadFile access path => exact (Plugin.admits_moves.loadFile access path).map _
  | addLibraryPaths dirs => exact Plugin.admits_moves.addLibraryPaths dirs
  | loadBelow env paths => exact Plugin.admits_moves.loadBelow env paths
  | discover env => exact Plugin.admits_moves.discover env
  | beforeScripts env => exact Plugin.admits_moves.beforeScripts env
  | afterScripts => exact Plugin.moves_afterScripts
  | toggle tag enable => exact (Plugin.moves_toggle tag enable).map _
  | toggleValue value enable => exact (Plugin.moves_toggleValue value enable).map _
  | finish => exact Plugin.moves_finish

theorem Call.state_op (call : Call) (p : Plugin LocalHost) : (call.op p).state = call.leave p := by
  cases call <;> first | rfl | exact Op.state_map _ _ _

/-- The plugin after calls, in their order. -/
def Plugin.after (calls : List Call) (p : Plugin LocalHost) : Plugin LocalHost :=
  calls.foldl (fun p call => call.leave p) p

/-- A host before a plugin comes to it, with any analyzers of its own. -/
inductive LocalHost.Shipped : LocalHost → Prop
  | new (version : UInt32) (pluginPath : String) (fileToggle : Bool) :
      Shipped (.new version pluginPath fileToggle)
  | addBuiltin {h : LocalHost} (name : String) (entry : Entry) :
      Shipped h → Shipped (h.addBuiltin name entry).2
  | setConstant {h : LocalHost} (name : String) (value : Bool) :
      Shipped h → Shipped (h.setConstant name value)

/-- A plugin that calls in some order lead to. -/
inductive Plugin.Reached : Plugin LocalHost → Prop
  | new {settings : Settings} {host : LocalHost} {failures : List RuntimeFailure}
      {p : Plugin LocalHost} :
      host.Shipped → Plugin.new settings host failures = .ok p → Reached p
  | call {p : Plugin LocalHost} (call : Call) : Reached p → Reached (call.leave p)

namespace Plugin

theorem eq_of_new {settings : Settings} {host : LocalHost} {failures : List RuntimeFailure}
    {p : Plugin LocalHost} (h : Plugin.new settings host failures = .ok p) :
    p = ⟨settings, .new host failures, .empty, .registering⟩ := by
  unfold Plugin.new at h
  split at h
  · split at h
    · exact (Except.ok.inj h).symm
    · contradiction
  · exact (Except.ok.inj h).symm

theorem registry_of_new {settings : Settings} {host : LocalHost} {failures : List RuntimeFailure}
    {p : Plugin LocalHost} (h : Plugin.new settings host failures = .ok p) :
    p.registry = .new host failures ∧ p.phase = .registering := by
  rw [eq_of_new h]
  exact ⟨rfl, rfl⟩

theorem Reached.after {p : Plugin LocalHost} (hp : p.Reached) (calls : List Call) :
    (p.after calls).Reached := by
  induction calls generalizing p with
  | nil => exact hp
  | cons call calls ih => exact ih (hp.call call)

/-- Settings that name no directories. -/
def bareSettings : Settings := ⟨none, none, .ofString "", none, none, "hlto", []⟩

/-- A new plugin with such settings. -/
def bare (host : LocalHost) : Plugin LocalHost :=
  ⟨bareSettings, .new host [], .empty, .registering⟩

theorem reached_bare {host : LocalHost} (h : host.Shipped) : (bare host).Reached :=
  .new h (show Plugin.new bareSettings host [] = .ok (bare host) from rfl)

theorem silent_onRegistry {α : Type} (x : Op (Registry LocalHost) α) (p : Plugin LocalHost) :
    (onRegistry x p).silent =
      ((x p.registry).silent.1, { p with registry := (x p.registry).silent.2 }) := rfl

theorem silent_whileRegistering_bind {α : Type} {p : Plugin LocalHost}
    (hphase : p.phase = .registering) (operation : Operation) (x : Op (Plugin LocalHost) α) :
    ((do whileRegistering operation; x : Op _ α) p).silent = (x p).silent := by
  have hopen : (whileRegistering operation p).silent = (.ok (), p) := by
    rw [whileRegistering, Op.silent_read_bind, if_pos hphase, Op.silent_pure]
  rw [Op.silent_bind, hopen, Op.proceed_ok]

/-- A direct registration concerns the registry only. -/
theorem leave_register {p : Plugin LocalHost} (hphase : p.phase = .registering)
    (registration : Registration) : (Call.register registration).leave p =
      { p with registry := (Registry.register registration p.registry).state } := by
  rw [Call.leave, state_eq_silent, register, silent_whileRegistering_bind hphase]
  rfl

/-- The plugin's registry is led along. -/
def Leads (p p' : Plugin LocalHost) : Prop := p.registry.Leads p'.registry

instance : IsPreorder (Plugin LocalHost) Leads where
  refl p := refl p.registry
  trans _ _ _ h h' := IsTrans.trans (r := Registry.Leads) _ _ _ h h'

variable {α : Type}

theorem follows_onRegistry {x : Op (Registry LocalHost) α} (hx : x.Follows Registry.Leads) :
    (onRegistry x).Follows Leads := hx.within fun _ _ h => h

theorem follows_update {f : Plugin LocalHost → Plugin LocalHost}
    (hf : ∀ p, (f p).registry.analyzers = p.registry.analyzers)
    (hr : ∀ p, (f p).registry.roster = p.registry.roster) : (Op.update f).Follows Leads :=
  fun p => Registry.leads_of_eq (hf p) (hr p)

theorem follows_loadOnce (access : Access) (path : Path) :
    (loadOnce access path : Op (Plugin LocalHost) Bool).Follows Leads := by
  refine (Op.follows_ofExcept _).bind fun location => (Op.follows_read _).bind fun known => ?_
  split
  · exact (Op.follows_debug _).bind fun _ => Op.follows_pure false
  · refine (Op.follows_debug _).bind fun _ => (Op.follows_ofExcept _).bind fun script =>
      (Op.follows_emit _).bind fun _ => Op.Follows.bind ?_ fun _ => ?_
    · exact follows_update (fun _ => rfl) fun _ => rfl
    · exact (Op.follows_emit _).bind fun _ =>
        (follows_onRegistry (Registry.follows_run script)).bind fun _ =>
          (Op.follows_emit _).bind fun _ => Op.follows_pure true

theorem follows_startRuntime :
    (startRuntime : Op (Registry LocalHost) Unit).Follows Registry.Leads := by
  refine (Op.follows_read _).bind fun options => Op.Follows.bind ?_ fun started => ?_
  · exact Op.follows_answer fun _ => Registry.leads_of_eq rfl rfl
  · cases started with
    | ok => exact Op.follows_emit _
    | error failure => exact (Op.follows_emit _).bind fun _ => Op.follows_raise _

/-- Every move leads the registry along. -/
theorem Move.leads {p q : Plugin LocalHost} {t : List Trace} (h : Move p t q) : p.Leads q := by
  cases h with
  | log => exact refl p
  | searchPath dir => exact Registry.leads_of_eq rfl rfl
  | register registration => exact follows_onRegistry (Registry.follows_register registration) p
  | load access path => exact follows_loadOnce access path p
  | placeholders => exact follows_onRegistry Registry.follows_assignPlaceholders p
  | start => exact follows_onRegistry follows_startRuntime p
  | stopResolving => exact follows_onRegistry (Registry.follows_resolve _) p
  | resolve => exact Registry.follows_resolve _ p.registry
  | toggle tag enable =>
    have htoggle := Registry.follows_toggle Registry.follows_setProtocolEnabled
      Registry.follows_setFileEnabled tag enable
    exact follows_onRegistry htoggle p
  | stop => exact Registry.leads_of_eq rfl rfl

theorem Moves.leads {p q : Plugin LocalHost} {t : List Trace} (h : Moves p t q) : p.Leads q :=
  h.follows id Move.leads

end Plugin

/-- Every call leads the registry along. -/
theorem Call.leads (call : Call) (p : Plugin LocalHost) : p.Leads (call.leave p) := by
  rw [← call.state_op]
  exact (call.moves p).leads

theorem Plugin.leads_after (calls : List Call) (p : Plugin LocalHost) :
    p.Leads (p.after calls) := by
  induction calls generalizing p with
  | nil => exact refl p
  | cons call calls ih => exact IsTrans.trans (r := Leads) _ _ _ (call.leads p) (ih (call.leave p))

/-- In a plugin that calls lead to, all records are in their places. -/
theorem Plugin.Reached.placed {p : Plugin LocalHost} (hp : p.Reached) :
    p.registry.analyzers.Placed := by
  induction hp with
  | new _ h =>
    rw [(registry_of_new h).1]
    exact Analyzers.placed_empty
  | call call _ ih => exact (call.leads _ ih).1

end TrafficAnalyzers
