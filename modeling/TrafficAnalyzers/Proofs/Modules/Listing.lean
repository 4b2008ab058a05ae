import TrafficAnalyzers.Proofs.Ascending
import TrafficAnalyzers.Proofs.LibraryPaths
import TrafficAnalyzers.Proofs.Moves
import TrafficAnalyzers.Proofs.Paths
/-!
The list of modules after loads that succeed. Main statement: to what was listed before they add the
locations of their paths and nothing else.
-/
namespace TrafficAnalyzers.Plugin

/-- Each module is listed at its own location, in the order of locations. -/
structure Filed (m : SortedMap Location LoadedModule) : Prop where
  ascending : m.Ascending
  location : ∀ e ∈ m.entries, e.2.location = e.1

theorem filed_empty : Filed .empty :=
  ⟨SortedMap.ascending_empty, fun _ h => absurd h List.not_mem_nil⟩

variable {m : SortedMap Location LoadedModule}

theorem Filed.insert (h : Filed m) {location : Location} (hnew : location ∉ m.keys)
    (now : Timestamp) : Filed (m.insert location ⟨location, now⟩) :=
  ⟨h.ascending.insert location _, location_insert h.location hnew now⟩

theorem Filed.map_location (h : Filed m) : m.values.map (·.location) = m.keys := by
  rw [SortedMap.values, List.map_map]
  exact List.map_congr_left h.location

variable {H : Type}

/-- From `p` to `q`, under the same settings, the list of modules has got the locations of the
paths, all of which denote something. -/
structure Lists (access : Access) (paths : List Path) (p q : Plugin H) : Prop where
  settings : q.settings = p.settings
  resolved : ∀ path ∈ paths, ∃ location, access.canonicalize path = .ok location
  mem_keys : ∀ location, location ∈ q.modules.keys ↔
    location ∈ p.modules.keys ∨ ∃ path ∈ paths, access.canonicalize path = .ok location
  filed : Filed p.modules → Filed q.modules

variable {access : Access} {p q s : Plugin H}

theorem lists_nil (hsettings : q.settings = p.settings) (hmodules : q.modules = p.modules) :
    Lists access [] p q where
  settings := hsettings
  resolved _ h := absurd h List.not_mem_nil
  mem_keys location := by simp [hmodules]
  filed h := hmodules ▸ h

theorem lists_singleton {path : Path} {location : Location}
    (hpath : access.canonicalize path = .ok location) (hsettings : q.settings = p.settings)
    (hkeys : ∀ l, l ∈ q.modules.keys ↔ l = location ∨ l ∈ p.modules.keys)
    (hfiled : Filed p.modules → Filed q.modules) : Lists access [path] p q where
  settings := hsettings
  resolved path' h := ⟨location, List.mem_singleton.mp h ▸ hpath⟩
  mem_keys l := by
    rw [hkeys, or_comm]
    simp [hpath, eq_comm]
  filed := hfiled

theorem Lists.append {paths paths' : List Path} (h : Lists access paths p q)
    (h' : Lists access paths' q s) : Lists access (paths ++ paths') p s where
  settings := h'.settings.trans h.settings
  resolved path hpath := (List.mem_append.mp hpath).elim (h.resolved path) (h'.resolved path)
  mem_keys location := by
    rw [h'.mem_keys, h.mem_keys, or_assoc]
    simp only [List.mem_append, or_and_right, exists_or]
  filed hp := h'.filed (h.filed hp)

variable [Host H]

theorem lists_loadOnce {path : Path} {fresh : Bool}
    (h : (loadOnce access path p).silent = (.ok fresh, q)) : Lists access [path] p q := by
  have hload := loading_loadOnce access path p
  generalize loadOnce access path p = o at h hload
  have hresult := congrArg Prod.fst h
  obtain rfl : o.state = q := congrArg Prod.snd h
  cases hload with
  | unresolved | unopened => contradiction
  | duplicate hpath hknown =>
    exact lists_singleton hpath rfl (fun l => ⟨.inr, fun hl => hl.elim (· ▸ hknown) id⟩) id
  | opened hpath hnew =>
    exact lists_singleton hpath rfl (fun l => SortedMap.mem_keys_insert _) (·.insert hnew access.now)

/-- A load that succeeds finds modules still registering. -/
theorem lists_load {path : Path} {fresh : Bool}
    (h : (load access path p).silent = (.ok fresh, q)) : Lists access [path] p q := by
  by_cases hphase : p.phase = .registering
  · rw [load_of_registering hphase] at h
    exact lists_loadOnce h
  · rw [load, Op.bind_apply, whileRegistering_of_ne hphase] at h
    exact absurd h Op.fault_ne_ok

/-- Loads one module after the other. -/
def loadEach (access : Access) (paths : List Path) : Op (Plugin H) Unit :=
  paths.forM fun path => do
    let _ ← load access path

theorem lists_loadEach {paths : List Path} (h : (loadEach access paths p).silent = (.ok (), q)) :
    Lists access paths p q := by
  induction paths generalizing p with
  | nil =>
    obtain rfl : p = q := congrArg Prod.snd h
    exact lists_nil rfl rfl
  | cons path paths ih =>
    rw [loadEach, Op.forM_cons] at h
    obtain ⟨_, u, hfirst, hrest⟩ := Op.ok_of_bind h
    obtain ⟨fresh, w, hload, hend⟩ := Op.ok_of_bind hfirst
    obtain rfl : w = u := congrArg Prod.snd hend
    exact (lists_load hload).append (ih hrest)

/-- What is found below directories is loaded in the order in which it is found. -/
theorem silent_loadBelow (env : Environment) (paths : String) (p : Plugin H) :
    (loadBelow env paths p).silent = (loadEach env.access
      (Discovery.found env.files p.settings.moduleExtension paths) p).silent := by
  rw [loadBelow, Op.silent_read_bind, Op.silent_bind, Discovery.silent_search, Op.proceed_ok]
  rfl

/-- Loads in a row are split where the paths are. -/
theorem loadEach_append (access : Access) (paths paths' : List Path) :
    (loadEach access (paths ++ paths') : Op (Plugin H) Unit) =
      loadEach access paths >>= fun _ => loadEach access paths' := List.forM_append ..

/-- Discovery loads what is found in the default directories, list by list. -/
theorem silent_discover (env : Environment) (p : Plugin H) :
    (discover env p).silent = (loadEach env.access
      ((p.settings.searchPaths (Host.pluginPath p.registry.host)).flatMap
        (Discovery.found env.files p.settings.moduleExtension)) p).silent := by
  rw [discover, Op.silent_read_bind]
  generalize p.settings.searchPaths (Host.pluginPath p.registry.host) = lists
  generalize hextension : p.settings.moduleExtension = extension
  induction lists generalizing p with
  | nil => rfl
  | cons paths lists ih =>
    rw [List.flatMap_cons, loadEach_append, Op.forM_cons, Op.silent_bind, Op.silent_bind,
      silent_loadBelow, hextension]
    -- the next list is searched for the same extension, as loads keep the settings
    cases hload : (loadEach env.access (Discovery.found env.files extension paths) p).silent with
    | mk result q =>
      cases result with
      | error fault => rfl
      | ok => exact ih q ((lists_loadEach hload).settings ▸ hextension)

theorem lists_discover {env : Environment} (h : (discover env p).silent = (.ok (), q)) :
    Lists env.access ((p.settings.searchPaths (Host.pluginPath p.registry.host)).flatMap
      (Discovery.found env.files p.settings.moduleExtension)) p q := by
  rw [silent_discover] at h
  exact lists_loadEach h

theorem lists_loadFile {path : Path} (h : (loadFile access path p).silent = (.ok .module, q)) :
    Lists access [path] p q := by
  rw [loadFile, Op.silent_read_bind] at h
  split at h
  · obtain ⟨fresh, u, hload, hend⟩ := Op.ok_of_bind h
    obtain rfl : u = q := congrArg Prod.snd hend
    exact lists_load hload
  split at h
  · exact absurd h Op.fault_ne_ok
  · simp [Outcome.silent] at h

/-- Settings and modules stay as they are. -/
def SameModules (p q : Plugin H) : Prop := q.settings = p.settings ∧ q.modules = p.modules

instance : IsPreorder (Plugin H) SameModules where
  refl _ := ⟨rfl, rfl⟩
  trans _ _ _ h h' := ⟨h'.1.trans h.1, h'.2.trans h.2⟩

omit [Host H] in
theorem sameModules_onRegistry {α : Type} (x : Op (Registry H) α) :
    (onRegistry x).Follows SameModules := fun _ => ⟨rfl, rfl⟩

/-- The second phase loads nothing. -/
theorem sameModules_afterScripts : (afterScripts : Op (Plugin H) Unit).Follows SameModules := by
  refine (follows_whileRegistering _).bind fun _ => (Op.follows_debug _).bind fun _ =>
    (sameModules_onRegistry _).bind fun _ => (Op.follows_debug _).bind fun _ =>
      (sameModules_onRegistry _).bind fun _ => (Op.follows_read _).bind fun parsers =>
        (sameModules_onRegistry _).bind fun _ => ?_
  exact Op.Follows.bind (Op.follows_update fun _ => ⟨rfl, rfl⟩) fun _ => Op.follows_debug _

section Local

theorem pluginPath_addSearchPaths (dirs : List String) (h : LocalHost) :
    (Host.addSearchPaths dirs h).pluginPath = h.pluginPath := by
  induction dirs generalizing h with
  | nil => rfl
  | cons dir dirs ih => exact ih (Host.addSearchPath dir h)

/-- Before the host reads its scripts all that is discovered is listed. -/
theorem lists_beforeScripts {env : Environment} {p q : Plugin LocalHost}
    (h : (beforeScripts env p).silent = (.ok (), q)) :
    Lists env.access ((p.settings.searchPaths p.registry.host.pluginPath).flatMap
      (Discovery.found env.files p.settings.moduleExtension)) p q := by
  rw [silent_beforeScripts] at h
  cases hown : p.settings.ownDirectory env.executable with
  | error fault =>
    rw [hown] at h
    exact absurd h Op.fault_ne_ok
  | ok own =>
    rw [hown] at h
    obtain ⟨hsettings, hresolved, hkeys, hfiled⟩ := lists_discover h
    rw [show ∀ dirs, Host.pluginPath (p.widen dirs).registry.host = p.registry.host.pluginPath from
      fun dirs => pluginPath_addSearchPaths dirs _] at hresolved hkeys
    exact ⟨hsettings, hresolved, hkeys, hfiled⟩

end Local

end TrafficAnalyzers.Plugin
