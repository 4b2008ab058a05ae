import Mathlib.Data.List.Perm.Basic
import TrafficAnalyzers.Proofs.Modules.Loading
import TrafficAnalyzers.Proofs.Session
/-!
Loads of modules, over any host. What a path denotes and what a module does may be another thing at
every load. Main statement: at each location a module is opened once and registers once, and is
listed from then on.
-/
namespace TrafficAnalyzers

namespace Trace

def opened? : Trace → Option Location
  | opened location => some location
  | _ => none

def registering? : Trace → Option Location
  | registering location => some location
  | _ => none

/-- The locations at which modules were opened, in the order of time. -/
def openings (t : List Trace) : List Location := t.filterMap opened?

/-- The locations of the modules that began to register themselves, in the order of time. -/
def beginnings (t : List Trace) : List Location := t.filterMap registering?

theorem openings_append (t u : List Trace) : openings (t ++ u) = openings t ++ openings u :=
  List.filterMap_append

theorem beginnings_append (t u : List Trace) : beginnings (t ++ u) = beginnings t ++ beginnings u :=
  List.filterMap_append

theorem openings_of_registration {t : List Trace} (h : ∀ e ∈ t, e.ofRegistration) :
    openings t = [] := by
  rw [openings, List.filterMap_eq_nil_iff]
  intro e he
  have hof := h e he
  cases e <;> first | rfl | contradiction

theorem beginnings_of_registration {t : List Trace} (h : ∀ e ∈ t, e.ofRegistration) :
    beginnings t = [] := by
  rw [beginnings, List.filterMap_eq_nil_iff]
  intro e he
  have hof := h e he
  cases e <;> first | rfl | contradiction

end Trace

namespace Plugin

open Trace (openings beginnings)

variable {H : Type} [Host H]

/-- Loads one after the other, with their traces. Between them anything may change but the list of
modules. -/
inductive Loads (p : Plugin H) : List Trace → Plugin H → Prop
  | start : Loads p [] p
  | load (access : Access) (path : Path) {t : List Trace} {q : Plugin H} : Loads p t q →
      Loads p (t ++ (loadOnce access path q).trace) (loadOnce access path q).state
  | meanwhile {t : List Trace} {q s : Plugin H} : Loads p t q → s.modules = q.modules →
      Loads p t s

/-- The list of modules tells the traces of the loads that led to it: it lists the locations of the
modules that were opened, each of them once, and each of these modules began to register itself when
it was opened. -/
structure Ledger (t : List Trace) (q : Plugin H) : Prop where
  keys : q.modules.keys.Perm (openings t)
  once : (openings t).Nodup
  registering : beginnings t = openings t
  location : ∀ e ∈ q.modules.entries, e.2.location = e.1

omit [Host H] in
theorem ledger_start {p : Plugin H} (hp : p.modules = .empty) : Ledger [] p := by
  refine ⟨?_, List.nodup_nil, rfl, ?_⟩ <;> rw [hp]
  · exact .refl _
  · exact fun e he => absurd he List.not_mem_nil

theorem openings_entered (location : Location) (script : Script) (now : Timestamp)
    (p : Plugin H) : openings (p.entered location script now).trace = [location] := by
  have hrun := Trace.openings_of_registration (Registry.grows_run script p.registry).traces
  have hend : openings (completion location (Registry.run script p.registry).result) = [] := by
    cases (Registry.run script p.registry).result <;> rfl
  rw [entered, Trace.openings_append, Trace.openings_append, hrun, hend]
  rfl

theorem beginnings_entered (location : Location) (script : Script) (now : Timestamp)
    (p : Plugin H) : beginnings (p.entered location script now).trace = [location] := by
  have hrun := Trace.beginnings_of_registration (Registry.grows_run script p.registry).traces
  have hend : beginnings (completion location (Registry.run script p.registry).result) = [] := by
    cases (Registry.run script p.registry).result <;> rfl
  rw [entered, Trace.beginnings_append, Trace.beginnings_append, hrun, hend]
  rfl

variable {t : List Trace} {p q : Plugin H}

omit [Host H] in
/-- A message is nothing to the ledger. -/
theorem Ledger.log (h : Ledger t q) (level : Level) (text : String) :
    Ledger (t ++ [.log level text]) q := by
  have hopenings : openings (t ++ [.log level text]) = openings t := by
    rw [Trace.openings_append]
    exact List.append_nil _
  have hbeginnings : beginnings (t ++ [.log level text]) = beginnings t := by
    rw [Trace.beginnings_append]
    exact List.append_nil _
  refine ⟨?_, ?_, ?_, h.location⟩ <;> rw [hopenings]
  · exact h.keys
  · exact h.once
  · rw [hbeginnings, h.registering]

theorem Ledger.entered (h : Ledger t q) {location : Location} (hnew : location ∉ q.modules.keys)
    (script : Script) (now : Timestamp) : Ledger (t ++ (q.entered location script now).trace)
      (q.entered location script now).state := by
  have hperm := SortedMap.perm_insert hnew (⟨location, now⟩ : LoadedModule)
  have hopenings : openings (t ++ (q.entered location script now).trace) =
      openings t ++ [location] := by
    rw [Trace.openings_append, openings_entered]
  refine ⟨?_, ?_, ?_, location_insert h.location hnew now⟩
  · rw [hopenings]
    exact (hperm.map _).trans ((h.keys.cons location).trans (List.perm_append_singleton _ _).symm)
  · rw [hopenings, (List.perm_append_singleton _ _).nodup_iff, List.nodup_cons, ← h.keys.mem_iff]
    exact ⟨hnew, h.once⟩
  · rw [hopenings, Trace.beginnings_append, beginnings_entered, h.registering]

/-- A load keeps the ledger. -/
theorem Ledger.load (h : Ledger t q) (access : Access) (path : Path) :
    Ledger (t ++ (loadOnce access path q).trace) (loadOnce access path q).state := by
  have hload := loading_loadOnce access path q
  generalize loadOnce access path q = o at hload
  cases hload with
  | unresolved =>
    rw [List.append_nil]
    exact h
  | duplicate => exact h.log _ _
  | unopened => exact h.log _ _
  | opened hpath hnew => exact h.entered hnew _ _

theorem ledger_loads (hp : p.modules = .empty) (h : Loads p t q) : Ledger t q := by
  induction h with
  | start => exact ledger_start hp
  | load access path _ ih => exact ih.load access path
  | meanwhile _ hsame ih => exact ⟨hsame ▸ ih.keys, ih.once, ih.registering, hsame ▸ ih.location⟩

theorem mem_modules_loadOnce {e : Location × LoadedModule} (he : e ∈ q.modules.entries)
    (access : Access) (path : Path) : e ∈ (loadOnce access path q).state.modules.entries := by
  have hload := loading_loadOnce access path q
  generalize loadOnce access path q = o at hload
  cases hload with
  | unresolved | duplicate | unopened => exact he
  | opened hpath hnew => exact (SortedMap.perm_insert hnew _).mem_iff.mpr (List.mem_cons_of_mem _ he)

/-- No module is ever taken off the list. -/
theorem mem_modules_loads {e : Location × LoadedModule} (he : e ∈ p.modules.entries)
    (h : Loads p t q) : e ∈ q.modules.entries := by
  induction h with
  | start => exact he
  | load access path _ ih => exact mem_modules_loadOnce ih access path
  | meanwhile _ hsame ih => exact hsame ▸ ih

/-- What a load of `path` comes to, and whether that is listed. -/
structure LoadFacts (q : Plugin H) (access : Access) (path : Path) : Prop where
  /-- Nothing is asked about how to open a module that is listed. -/
  duplicate : ∀ location ∈ q.modules.keys, access.canonicalize path = .ok location →
    ∃ text, ∀ openModule, loadOnce { access with openModule } path q =
      ⟨.ok false, q, [.log .debug text]⟩
  unresolved : ∀ cause, access.canonicalize path = .error cause →
    loadOnce access path q = ⟨.error (.unresolvedPath path cause), q, []⟩
  unopened : ∀ location ∉ q.modules.keys, access.canonicalize path = .ok location →
    ∀ cause, access.openModule location = .error cause → ∃ text, loadOnce access path q =
      ⟨.error (.moduleNotOpened location.path cause), q, [.log .debug text]⟩
  /-- A module that is opened is listed and runs, and it runs once. -/
  entered : ∀ location ∉ q.modules.keys, access.canonicalize path = .ok location →
    ∀ script, access.openModule location = .ok script →
      loadOnce access path q = q.entered location script access.now
  opened : ∀ location, .opened location ∈ (loadOnce access path q).trace ↔
    location ∉ q.modules.keys ∧ access.canonicalize path = .ok location ∧
      ∃ script, access.openModule location = .ok script
  isLoaded : q.isLoaded access path = true ↔
    ∃ location ∈ q.modules.keys, access.canonicalize path = .ok location

omit [Host H] in
theorem isLoaded_iff {access : Access} {path : Path} : q.isLoaded access path = true ↔
    ∃ location ∈ q.modules.keys, access.canonicalize path = .ok location := by
  cases h : access.canonicalize path with
  | error cause => simp [isLoaded, h]
  | ok location => simp [isLoaded, h, SortedMap.contains_iff]

omit [Host H] in
theorem mem_openings {location : Location} : .opened location ∈ t ↔ location ∈ openings t := by
  rw [openings, List.mem_filterMap]
  constructor
  · exact fun h => ⟨_, h, rfl⟩
  · rintro ⟨e, he, hopened⟩
    cases e with
    | opened =>
      obtain rfl := Option.some.inj hopened
      exact he
    | log | runtime | registering | registered => contradiction

/-- A load tells of an opened module exactly if it opened one that was not listed. -/
theorem opened_loadOnce {access : Access} {path : Path} {location : Location} :
    .opened location ∈ (loadOnce access path q).trace ↔
      location ∉ q.modules.keys ∧ access.canonicalize path = .ok location ∧
        ∃ script, access.openModule location = .ok script := by
  rw [mem_openings]
  have hload := loading_loadOnce access path q
  generalize loadOnce access path q = o at hload
  cases hload with
  | unresolved hpath => simp [hpath, openings]
  | duplicate hpath hknown =>
    refine ⟨nofun, ?_⟩
    rintro ⟨hnot, hlocation, -⟩
    obtain rfl := Except.ok.inj (hpath.symm.trans hlocation)
    exact absurd hknown hnot
  | unopened hpath _ hopen =>
    refine ⟨nofun, ?_⟩
    rintro ⟨-, hlocation, script, hscript⟩
    obtain rfl := Except.ok.inj (hpath.symm.trans hlocation)
    exact absurd (hopen.symm.trans hscript) nofun
  | opened hpath hnew hopen =>
    rw [openings_entered, List.mem_singleton]
    constructor
    · rintro rfl
      exact ⟨hnew, hpath, _, hopen⟩
    · rintro ⟨-, hlocation, -⟩
      exact Except.ok.inj (hlocation.symm.trans hpath)

theorem loadFacts (q : Plugin H) (access : Access) (path : Path) : LoadFacts q access path where
  duplicate _ hknown hpath :=
    ⟨_, fun openModule => @loadOnce_duplicate _ _ { access with openModule } _ _ _ hpath hknown⟩
  unresolved _ hpath := loadOnce_unresolved hpath
  unopened _ hnew hpath _ hopen := ⟨_, loadOnce_unopened hpath hnew hopen⟩
  entered _ hnew hpath _ hopen := loadOnce_opened hpath hnew hopen
  opened _ := opened_loadOnce
  isLoaded := isLoaded_iff

/-- Over any sequence of loads, modules are opened and register once, and stay on the list. A load
that opens a module is one run of what the module does. -/
theorem modules_register_once (hp : p.modules = .empty) (h : Loads p t q) :
    Ledger t q ∧
      (∀ u s, Loads q u s → ∀ e ∈ q.modules.entries, e ∈ s.modules.entries) ∧
      ∀ access path, LoadFacts q access path :=
  ⟨ledger_loads hp h, fun _ _ hlater _ he => mem_modules_loads he hlater, loadFacts q⟩

/-- A module that gives up after its first step. -/
def quitting : Script := [.register (.event "Begun"), .fail (.missingTag "Rest")]

/-- Every path denotes the same module. -/
def quitter : Access where
  canonicalize _ := .ok ⟨[[0x6D]]⟩
  openModule _ := .ok quitting
  now := .epoch

/-- Under its second spelling the module is not opened again, although its registration failed. -/
theorem second_spelling_not_opened :
    let p := bare (.new 0 "" true)
    let first := loadOnce quitter (.ofString "m") p
    let second := loadOnce quitter (.ofString "./m") first.state
    Ledger (first.trace ++ second.trace) second.state ∧
      first = p.entered ⟨[[0x6D]]⟩ quitting .epoch ∧
      second.state.modules.keys = [⟨[[0x6D]]⟩] ∧
      first.result = .error (.missingTag "Rest") ∧ second.result = .ok false := by
  intro p first second
  have hfirst := (Loads.start (p := p)).load quitter (.ofString "m")
  have hruns : Loads p (first.trace ++ second.trace) second.state :=
    hfirst.load quitter (.ofString "./m")
  have hfacts := (modules_register_once rfl (Loads.start (p := p))).2.2 quitter (.ofString "m")
  exact ⟨(modules_register_once rfl hruns).1, hfacts.entered _ nofun rfl _ rfl,
    by decide +kernel, by decide +kernel, by decide +kernel⟩

end Plugin

end TrafficAnalyzers
