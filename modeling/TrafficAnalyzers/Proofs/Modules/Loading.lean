import TrafficAnalyzers.Plugin
import TrafficAnalyzers.Proofs.Growth
/-!
What one load of a module comes to, over any host. Its path denotes nothing, or a module opened
before, or a file that cannot be opened, or a module that is opened now and registers itself.
-/
namespace TrafficAnalyzers.Plugin

variable {H : Type} [Host H]

/-- The plugin with a module just opened, and its registration as far as that gets. -/
def enter (location : Location) (script : Script) (now : Timestamp) (p : Plugin H) : Plugin H :=
  { p with
    registry := (Registry.run script p.registry).state
    modules := p.modules.insert location ⟨location, now⟩ }

/-- The last trace of a load tells that the registration came to its end. -/
def completion (location : Location) : Except Fault Unit → List Trace
  | .ok () => [.registered location]
  | .error _ => []

/-- What comes of a load that opens a module. -/
def entered (location : Location) (script : Script) (now : Timestamp) (p : Plugin H) :
    Outcome (Plugin H) Bool :=
  let run := Registry.run script p.registry
  ⟨run.result.map fun _ => true, p.enter location script now,
    [.log .debug s!"Loading {location.path.text}", .opened location, .registering location] ++
      (run.trace ++ completion location run.result)⟩

section Outcomes

omit [Host H] in
theorem ofExcept_mapError_error {ε α : Type} (f : ε → Fault) (e : ε) :
    (.ofExcept ((.error e : Except ε α).mapError f) : Op (Plugin H) α) = .raise (f e) := rfl

omit [Host H] in
theorem ofExcept_mapError_ok {ε α : Type} (f : ε → Fault) (a : α) :
    (.ofExcept ((.ok a : Except ε α).mapError f) : Op (Plugin H) α) = pure a := rfl

variable {access : Access} {path : Path} {p : Plugin H}

theorem loadOnce_unresolved {cause : IoError} (hpath : access.canonicalize path = .error cause) :
    loadOnce access path p = ⟨.error (.unresolvedPath path cause), p, []⟩ := by
  simp [loadOnce, hpath, ofExcept_mapError_error]

variable {location : Location} (hpath : access.canonicalize path = .ok location)

include hpath

theorem loadOnce_duplicate (hknown : location ∈ p.modules.keys) : loadOnce access path p =
    ⟨.ok false, p,
      [.log .debug s!"Ignoring duplicate loading request for {location.path.text}"]⟩ := by
  simp [loadOnce, hpath, ofExcept_mapError_ok, SortedMap.contains_iff.mpr hknown]

variable (hnew : location ∉ p.modules.keys)

include hnew

theorem loadOnce_unopened {cause : OpenError} (hopen : access.openModule location = .error cause) :
    loadOnce access path p = ⟨.error (.moduleNotOpened location.path cause), p,
      [.log .debug s!"Loading {location.path.text}"]⟩ := by
  have hcontains := mt SortedMap.contains_iff.mp hnew
  simp [loadOnce, hpath, hopen, ofExcept_mapError_ok, ofExcept_mapError_error, hcontains]

theorem loadOnce_opened {script : Script} (hopen : access.openModule location = .ok script) :
    loadOnce access path p = p.entered location script access.now := by
  have hcontains := mt SortedMap.contains_iff.mp hnew
  cases hrun : (Registry.run script p.registry).result <;>
    simp [loadOnce, hpath, hopen, ofExcept_mapError_ok, Except.map, hcontains, onRegistry,
      Op.andThen, hrun, entered, enter, completion]

end Outcomes

/-- The outcomes of a load. -/
inductive Loading (access : Access) (path : Path) (p : Plugin H) : Outcome (Plugin H) Bool → Prop
  | unresolved {cause : IoError} (hpath : access.canonicalize path = .error cause) :
      Loading access path p ⟨.error (.unresolvedPath path cause), p, []⟩
  | duplicate {location : Location} (hpath : access.canonicalize path = .ok location)
      (hknown : location ∈ p.modules.keys) : Loading access path p
        ⟨.ok false, p,
          [.log .debug s!"Ignoring duplicate loading request for {location.path.text}"]⟩
  | unopened {location : Location} (hpath : access.canonicalize path = .ok location)
      (hnew : location ∉ p.modules.keys) {cause : OpenError}
      (hopen : access.openModule location = .error cause) : Loading access path p
        ⟨.error (.moduleNotOpened location.path cause), p,
          [.log .debug s!"Loading {location.path.text}"]⟩
  | opened {location : Location} (hpath : access.canonicalize path = .ok location)
      (hnew : location ∉ p.modules.keys) {script : Script}
      (hopen : access.openModule location = .ok script) :
      Loading access path p (p.entered location script access.now)

/-- A load comes to one of these outcomes. -/
theorem loading_loadOnce (access : Access) (path : Path) (p : Plugin H) :
    Loading access path p (loadOnce access path p) := by
  cases hpath : access.canonicalize path with
  | error cause =>
    rw [loadOnce_unresolved hpath]
    exact .unresolved hpath
  | ok location =>
    by_cases hknown : location ∈ p.modules.keys
    · rw [loadOnce_duplicate hpath hknown]
      exact .duplicate hpath hknown
    · cases hopen : access.openModule location with
      | error cause =>
        rw [loadOnce_unopened hpath hknown hopen]
        exact .unopened hpath hknown hopen
      | ok script =>
        rw [loadOnce_opened hpath hknown hopen]
        exact .opened hpath hknown hopen

omit [Host H] in
/-- Refusing an operation or letting it pass is nothing to the plugin. -/
theorem follows_whileRegistering {R : Plugin H → Plugin H → Prop} [IsPreorder (Plugin H) R]
    (operation : Operation) : (whileRegistering operation : Op (Plugin H) Unit).Follows R := by
  refine (Op.follows_read _).bind fun phase => ?_
  split
  · exact Op.follows_pure ()
  · exact Op.follows_raise _

/-- To the registry a load does what the run of a module does, or nothing. -/
theorem registry_loadOnce {R : Registry H → Registry H → Prop} [Std.Refl R]
    (hrun : ∀ script, (Registry.run script : Op (Registry H) Unit).Follows R) (access : Access)
    (path : Path) (p : Plugin H) : R p.registry (loadOnce access path p).state.registry := by
  have hload := loading_loadOnce access path p
  generalize loadOnce access path p = o at hload
  cases hload with
  | unresolved | duplicate | unopened => exact refl p.registry
  | @opened _ _ _ script => exact hrun script p.registry

theorem location_insert {m : SortedMap Location LoadedModule}
    (h : ∀ e ∈ m.entries, e.2.location = e.1) {location : Location} (hnew : location ∉ m.keys)
    (now : Timestamp) :
    ∀ e ∈ (m.insert location ⟨location, now⟩).entries, e.2.location = e.1 := by
  intro e he
  rcases List.mem_cons.mp ((SortedMap.perm_insert hnew _).mem_iff.mp he) with rfl | he
  · rfl
  · exact h e he

/-- A load lets the registry grow, and is nothing to the phase. -/
theorem grows_loadOnce (access : Access) (path : Path) (p : Plugin H) :
    (∃ t, p.registry.Grows t (loadOnce access path p).state.registry) ∧
      (loadOnce access path p).state.phase = p.phase := by
  have hload := loading_loadOnce access path p
  generalize loadOnce access path p = o at hload
  cases hload with
  | unresolved | duplicate | unopened => exact ⟨⟨[], Op.Chains.nil p.registry⟩, rfl⟩
  | opened => exact ⟨⟨_, Registry.grows_run _ p.registry⟩, rfl⟩

end TrafficAnalyzers.Plugin
