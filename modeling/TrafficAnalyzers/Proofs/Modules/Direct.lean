import TrafficAnalyzers.Proofs.Modules.Loading
import TrafficAnalyzers.Proofs.Session
/-!
The steps of a module taken on the plugin itself. Main statement: a load that opens a module does to
the plugin what the steps do when they are taken directly, and lists the module.
-/
namespace TrafficAnalyzers.Plugin

variable {H : Type} [Host H] {p : Plugin H} {script : Script}

/-- Takes a step of a module on the plugin itself. -/
def take : Step → Op (Plugin H) Unit
  | .register registration => register registration
  | .fail fault => .raise fault

/-- Takes steps up to the first one that fails. -/
def takeAll (script : Script) : Op (Plugin H) Unit := script.forM take

theorem take_of_registering (hphase : p.phase = .registering) (step : Step) :
    take step p = onRegistry (Registry.perform step) p := by
  cases step with
  | register registration =>
    have hopen := whileRegistering_of_registering hphase (operationOf registration)
    rw [take, register, Op.bind_of_ok (by rw [hopen]), hopen]
    rfl
  | fail fault => rfl

/-- As long as modules register, the steps concern the registry only. -/
theorem takeAll_of_registering (hphase : p.phase = .registering) (script : Script) :
    takeAll script p = onRegistry (Registry.run script) p := by
  induction script generalizing p with
  | nil => rfl
  | cons step steps ih =>
    have hstep := take_of_registering hphase step
    have hrun : Registry.run (step :: steps) p.registry =
        (Registry.perform step >>= fun _ => Registry.run steps) p.registry := rfl
    rw [onRegistry, Op.within_apply, hrun, takeAll, Op.forM_cons]
    cases hresult : (Registry.perform step p.registry).result with
    | error fault =>
      rw [Op.bind_of_error hresult, Op.bind_of_error (by rw [hstep]; exact hresult), hstep]
      rfl
    | ok =>
      have hrest := ih (p := (onRegistry (Registry.perform step) p).state) hphase
      rw [takeAll] at hrest
      rw [Op.bind_of_ok hresult, Op.bind_of_ok (by rw [hstep]; exact hresult), hstep, hrest]
      rfl

theorem map_eq_ok_iff {result : Except Fault Unit} :
    (result.map fun _ => true) = .ok true ↔ result = .ok () := by
  cases result <;> simp [Except.map]

theorem map_eq_error_iff {result : Except Fault Unit} {fault : Fault} :
    (result.map fun _ => true) = .error fault ↔ result = .error fault := by
  cases result <;> simp [Except.map]

/-- What a load does to the plugin is what the steps of its module do when they are taken directly,
one after the other and up to the first that fails. Only the list of modules is not theirs. -/
structure LoadsDirectly (access : Access) (path : Path) (location : Location) (script : Script)
    (p : Plugin H) : Prop where
  /-- Direct steps change nothing but the registry. -/
  direct : (takeAll script p).state = { p with registry := (takeAll script p).state.registry }
  state : (load access path p).state = { (takeAll script p).state with
    modules := p.modules.insert location ⟨location, access.now⟩ }
  result : (load access path p).result = (takeAll script p).result.map fun _ => true
  ok_iff : (load access path p).result = .ok true ↔ ∀ before step after,
    script = before ++ step :: after → (take step (takeAll before p).state).result = .ok ()
  error_iff : ∀ fault, (load access path p).result = .error fault ↔ ∃ before step after,
    script = before ++ step :: after ∧ (takeAll before p).result = .ok () ∧
      (take step (takeAll before p).state).result = .error fault ∧
      (takeAll script p).state = (take step (takeAll before p).state).state

/-- A load that opens a module does what the steps of the module do, with the same result. -/
theorem load_takes_steps {access : Access} {path : Path} {location : Location}
    (hphase : p.phase = .registering) (hpath : access.canonicalize path = .ok location)
    (hnew : location ∉ p.modules.keys) (hopen : access.openModule location = .ok script) :
    LoadsDirectly access path location script p := by
  have hdirect := takeAll_of_registering hphase script
  have hload : load access path p = p.entered location script access.now := by
    rw [load_of_registering hphase, loadOnce_opened hpath hnew hopen]
  have hresult : (load access path p).result = (takeAll script p).result.map fun _ => true := by
    rw [hload, hdirect]
    rfl
  refine ⟨?_, ?_, hresult, ?_, ?_⟩
  · rw [hdirect]
    rfl
  · rw [hload, hdirect]
    rfl
  · rw [hresult, map_eq_ok_iff, takeAll, Op.result_forM_ok_iff]
    rfl
  · intro fault
    rw [hresult, map_eq_error_iff, takeAll, Op.result_forM_error_iff]
    constructor
    · rintro ⟨before, step, after, rfl, hok, hfault⟩
      exact ⟨before, step, after, rfl, hok, hfault, (Op.forM_stopped hok hfault).2⟩
    · rintro ⟨before, step, after, hscript, hok, hfault, -⟩
      exact ⟨before, step, after, hscript, hok, hfault⟩

/-- A host that has no number left for packet analyzers. -/
def spent : LocalHost := { LocalHost.new 0 "" true with nextPacket := 0 }

/-- A module whose third step fails. -/
def midway : Access where
  canonicalize _ := .ok ⟨[[0x6D]]⟩
  openModule _ := .ok [.register (.parser ⟨"P", [], []⟩), .register (.event "Begun"),
    .register (.packet ⟨"K", "P"⟩), .register (.event "Rest")]
  now := .epoch

/-- The module that fails midway has registered what it had before. -/
theorem midway_load_direct : ∃ script,
    midway.openModule ⟨[[0x6D]]⟩ = .ok script ∧
      LoadsDirectly midway (.ofString "m") ⟨[[0x6D]]⟩ script (bare spent) ∧
      (load midway (.ofString "m") (bare spent)).result = .error (.missingTag "K") ∧
      (takeAll script (bare spent)).state.registry.events.keys = ["Begun"] :=
  ⟨_, rfl, load_takes_steps rfl rfl (by decide +kernel) rfl, by decide +kernel, by decide +kernel⟩

end TrafficAnalyzers.Plugin
