import TrafficAnalyzers.Proofs.Inspection
/-!
Which module path a discovery goes by. Main statement: that of the first layer which has one, of the
command line, the environment and the configuration file, unless it is empty; so the first one that
is not empty, except where an empty one comes before it.
-/
namespace TrafficAnalyzers

/-- The value of the first layer that is set. -/
def firstSet? (layers : List (Option String)) : Option String := layers.findSome? id

/-- The first value that is not empty. -/
def firstNonempty? (layers : List (Option String)) : Option String :=
  layers.findSome? (·.filter (!·.isEmpty))

/-- The first value is the first one that is not empty, unless it is empty and hides that. -/
theorem firstSet?_filter_eq_iff {layers : List (Option String)} :
    (firstSet? layers).filter (!·.isEmpty) = firstNonempty? layers ↔
      (firstSet? layers = some "" → firstNonempty? layers = none) := by
  induction layers with
  | nil => exact iff_of_true rfl fun _ => rfl
  | cons layer layers ih =>
    cases layer with
    | none => exact ih
    | some value =>
      by_cases hvalue : value = ""
      · subst hvalue
        exact ⟨fun h _ => h.symm, fun h => (h rfl).symm⟩
      · have hkept : (some value).filter (!·.isEmpty) = some value := by simp [hvalue]
        refine iff_of_true ?_ fun h => absurd (Option.some.inj h) hvalue
        rw [firstNonempty?, List.findSome?_cons, hkept]
        exact hkept

namespace Settings

/-- The lists of directories that are searched if `choice` is the module path. -/
def listsFor (env : Environment) (s : Settings) (choice : Option String) : List String :=
  match choice with
  | some paths => [paths]
  | none => [s.moduleDirectory.text, (env.get? hostPluginPathVariable).getD ""]

variable {env : Environment} {s : Settings}

theorem listsFor_inj {a b : Option String} : s.listsFor env a = s.listsFor env b ↔ a = b := by
  cases a <;> cases b <;> simp [listsFor]

theorem searchPaths_eq_listsFor : s.searchPaths ((env.get? hostPluginPathVariable).getD "") =
    s.listsFor env (s.modulePath.filter (!·.isEmpty)) := by
  rw [searchPaths, modulePathOverride?]
  cases s.modulePath.filter (!·.isEmpty) <;> rfl

end Settings

namespace CommandLine

/-- The settings before the environment's variables apply: the defaults, with the configuration file
on top of them if there is one. -/
def baseSettings (env : Environment) (line : CommandLine) : Except Fault Settings :=
  match line.config with
  | none => .ok (.default env)
  | some p =>
    match env.files.readText p with
    | .error cause => .error (.settingsUnreadable p cause)
    | .ok text =>
      match (Settings.default env).parse? text with
      | none => .error (.settingsMalformed p "not a JSON object of settings")
      | some s => .ok s

variable {env : Environment} {line : CommandLine} {modulePath : Option String} {base : Settings}

theorem settings_eq_map :
    line.settings env = (line.baseSettings env).map (·.withVariables env.get?) := by
  rw [settings, baseSettings]
  cases line.config with
  | none => rfl
  | some p =>
    dsimp only
    rw [Settings.load]
    cases env.files.readText p with
    | error cause => rfl
    | ok text =>
      dsimp only
      cases (Settings.default env).parse? text <;> rfl

/-- The module paths of the command line, the environment and the configuration file. -/
def modulePathLayers (env : Environment) (modulePath : Option String) (base : Settings) :
    List (Option String) :=
  [modulePath, env.get? Settings.modulePathVariable, base.modulePath]

/-- Whichever of them comes first takes the place of the others. -/
theorem modulePath_eq_firstSet? : (modulePath <|> (base.withVariables env.get?).modulePath) =
    firstSet? (modulePathLayers env modulePath base) := by
  cases modulePath with
  | some value => rfl
  | none =>
    rw [Settings.withVariables, modulePathLayers]
    cases env.get? Settings.modulePathVariable with
    | some value => rfl
    | none => cases base.modulePath <;> rfl

/-- The lists that a discovery searches. -/
def searchedLists (env : Environment) (modulePath : Option String) (base : Settings) :
    List String :=
  base.listsFor env ((firstSet? (modulePathLayers env modulePath base)).filter (!·.isEmpty))

theorem discovered_eq : env.discovered
    { base.withVariables env.get? with
      modulePath := modulePath <|> (base.withVariables env.get?).modulePath } =
    ⟨searchedLists env modulePath base, (searchedLists env modulePath base).flatMap
      (Discovery.found env.files base.moduleExtension)⟩ := by
  simp only [Environment.discovered, modulePath_eq_firstSet?, Settings.searchPaths_eq_listsFor]
  rfl

/-- How a command to discover comes to the lists that it searches. -/
structure SearchesTopmost (env : Environment) (line : CommandLine) (modulePath : Option String) :
    Prop where
  /-- With a configuration file that cannot be used nothing is searched. -/
  refused : ∀ fault, line.baseSettings env = .error fault → ∀ terminal,
    (line.run env terminal).result = .error (.fault fault) ∧ (line.run env terminal).printed = ""
  /-- The report shows the lists that are searched, and what is found below their directories. -/
  searched : ∀ base, line.baseSettings env = .ok base →
    line.Reports env (base.withVariables env.get?) fun format color =>
      (⟨searchedLists env modulePath base, (searchedLists env modulePath base).flatMap
        (Discovery.found env.files base.moduleExtension)⟩ : DiscoveryReport).render? format color
  /-- They go by the first value that is not empty, unless the first value is empty and hides it. -/
  hidden : ∀ base, searchedLists env modulePath base =
      base.listsFor env (firstNonempty? (modulePathLayers env modulePath base)) ↔
    (firstSet? (modulePathLayers env modulePath base) = some "" →
      firstNonempty? (modulePathLayers env modulePath base) = none)

/-- A discovery searches the module path of the topmost layer that has one. -/
theorem discover_searches_topmost (hcommand : line.command = .discover modulePath) :
    SearchesTopmost env line modulePath where
  refused fault hbase terminal := by
    have hsettings : line.settings env = .error fault := by rw [settings_eq_map, hbase]; rfl
    simp only [run, hsettings, and_self]
  searched base hbase := by
    have hsettings : line.settings env = .ok (base.withVariables env.get?) := by
      rw [settings_eq_map, hbase]
      rfl
    have hreports := reports_discover hsettings hcommand
    rwa [discovered_eq] at hreports
  hidden base := Settings.listsFor_inj.trans firstSet?_filter_eq_iff

/-- A process with an empty variable, and a configuration file that names a directory with a module. -/
def emptyVariable : Environment :=
  let bytes (s : String) : List UInt8 := (Path.ofString s).bytes
  let config := Content.data (bytes "\x7b\"module_path_override\": \"x\"\x7d")
  { vars := [(Settings.modulePathVariable, "")]
    accountHome := none
    executable := .error .notFound
    files := ⟨.file (bytes "c.json") config
      (.dir (bytes "x") (.file (bytes "a.hlto") (.module []) .empty) .empty), ⟨[]⟩⟩
    now := .epoch }

/-- The empty variable hides the directory that the file names, so its module is not found. -/
theorem empty_variable_hides_file :
    let line : CommandLine := ⟨.discover none, some (.ofString "c.json"), .json, none, true, false⟩
    let base : Settings := { Settings.default emptyVariable with modulePath := some "x" }
    let report : DiscoveryReport := ⟨["/usr/local/share/spicy/modules", ""], []⟩
    line.baseSettings emptyVariable = .ok base ∧
      firstNonempty? (modulePathLayers emptyVariable none base) = some "x" ∧
      Discovery.found emptyVariable.files "hlto" "x" = [.ofString "x/a.hlto"] ∧
      searchedLists emptyVariable none base ≠ base.listsFor emptyVariable (some "x") ∧
      line.Reports emptyVariable (base.withVariables emptyVariable.get?) (report.render? · ·) ∧
      some (line.run emptyVariable false).printed = report.render? .json false := by
  intro line base report
  have hbase : line.baseSettings emptyVariable = .ok base := by decide +kernel
  have hnonempty : firstNonempty? (modulePathLayers emptyVariable none base) = some "x" := by
    decide +kernel
  have htopmost : SearchesTopmost emptyVariable line none := discover_searches_topmost rfl
  have hreport : (⟨searchedLists emptyVariable none base, (searchedLists emptyVariable none
      base).flatMap (Discovery.found emptyVariable.files base.moduleExtension)⟩ :
        DiscoveryReport) = report := by decide +kernel
  refine ⟨hbase, hnonempty, by decide +kernel, ?_, ?_, by decide +kernel⟩
  · rw [← hnonempty]
    exact (htopmost.hidden base).not.mpr (by decide +kernel)
  · have hreports := htopmost.searched base hbase
    rwa [hreport] at hreports

end CommandLine

end TrafficAnalyzers
