import TrafficAnalyzers.CommandLine.Run
import TrafficAnalyzers.Proofs.Modules.Listing
import TrafficAnalyzers.Proofs.Session
/-!
What an inspection reports against what discovery lists. Main statement: the modules of the report
are the locations of all paths that are discovered or given, each of them once and in order.
-/
namespace TrafficAnalyzers

/-- What is discovered under these settings. -/
def Environment.discovered (env : Environment) (settings : Settings) : DiscoveryReport :=
  let lists := settings.searchPaths ((env.get? Settings.hostPluginPathVariable).getD "")
  ⟨lists, lists.flatMap (Discovery.found env.files settings.moduleExtension)⟩

/-- The paths denote something, and the modules of the report are what they denote, each of them
once, in the order of locations and so in that of the parts of their paths. -/
structure RegistryReport.Covers (report : RegistryReport) (fs : FileSystem) (paths : List Path) :
    Prop where
  resolved : ∀ p ∈ paths, ∃ location, fs.canonicalize p = .ok location
  modules : ∃ locations : List Location, locations.Pairwise (· < ·) ∧
    (∀ location, location ∈ locations ↔ ∃ p ∈ paths, fs.canonicalize p = .ok location) ∧
    report.modules.map (·.path) = locations.map Location.path
  ascending : fs.workingDirectory.Proper → (report.modules.map (·.path.parts)).Pairwise (· < ·)

theorem Plugin.Lists.covers {fs : FileSystem} {access : Access} {paths : List Path}
    {p q : Plugin LocalHost} (h : Lists access paths p q)
    (haccess : access.canonicalize = fs.canonicalize) (hp : p.modules = .empty) :
    (RegistryReport.ofPlugin q).Covers fs paths := by
  have hfiled : Filed q.modules := h.filed (hp ▸ filed_empty)
  have hkeys : ∀ l, l ∈ q.modules.keys ↔ ∃ path ∈ paths, fs.canonicalize path = .ok l := by
    intro l
    rw [h.mem_keys, hp, haccess]
    exact or_iff_right List.not_mem_nil
  have hpaths : (RegistryReport.ofPlugin q).modules.map (·.path) =
      q.modules.keys.map Location.path := by
    rw [← hfiled.map_location, List.map_map]
    exact List.map_map
  refine ⟨haccess ▸ h.resolved, ⟨q.modules.keys, hfiled.ascending, hkeys, hpaths⟩, fun hfs => ?_⟩
  have hparts : (RegistryReport.ofPlugin q).modules.map (·.path.parts) =
      q.modules.keys.map (·.names) := by
    have hcomp : (fun row : ModuleRow => row.path.parts) = Path.parts ∘ (·.path) := rfl
    rw [hcomp, ← List.map_map, hpaths, List.map_map]
    refine List.map_congr_left fun l hl => ?_
    obtain ⟨path, -, hpath⟩ := (hkeys l).mp hl
    exact (FileSystem.proper_canonicalize hfs hpath).parts_path
  rw [hparts, List.pairwise_map]
  exact hfiled.ascending

namespace CommandLine

open Plugin (Lists)

/-- Under these settings, which are its own, the command shows a report in its format if the report
has a text. -/
structure Reports (line : CommandLine) (env : Environment) (settings : Settings)
    (render? : Format → Bool → Option String) : Prop where
  own : line.settings env = .ok settings
  text : ∀ color, (line.report env color settings).1 =
    (render? line.format color).elim (.error .notText) .ok

/-- An inspection under these settings comes to this report. -/
def Inspects (env : Environment) (settings : Settings) (modules : List Path) (noDiscover : Bool)
    (hostVersion : Option UInt32) (report : RegistryReport) : Prop :=
  let version := (hostVersion <|> settings.compiledHostVersion).getD 0
  let hostPluginPath := (env.get? Settings.hostPluginPathVariable).getD ""
  ∃ plugin, Plugin.new settings (LocalHost.new version hostPluginPath true) [] = .ok plugin ∧
    (inspect env modules noDiscover plugin).result = .ok (.ok report)

variable {env : Environment} {settings : Settings} {line : CommandLine} {modules : List Path}
  {noDiscover : Bool} {hostVersion : Option UInt32} {report : RegistryReport}

/-- A command line's own module path comes before that of the settings. -/
theorem reports_discover {modulePath : Option String} (hsettings : line.settings env = .ok settings)
    (hcommand : line.command = .discover modulePath) :
    line.Reports env settings fun format color => (env.discovered
      { settings with modulePath := modulePath <|> settings.modulePath }).render? format color := by
  refine ⟨hsettings, fun color => ?_⟩
  let own : Settings := { settings with modulePath := modulePath <|> settings.modulePath }
  have hfound : (Discovery.searchAll env.files settings.moduleExtension
      (own.searchPaths ((env.get? Settings.hostPluginPathVariable).getD "")) ()).result =
        .ok (env.discovered own).modules :=
    congrArg Prod.fst (Discovery.silent_searchAll ..)
  simp only [CommandLine.report, hcommand]
  rw [hfound]
  rfl

theorem reports_discovered (hsettings : line.settings env = .ok settings)
    (hcommand : line.command = .discover none) :
    line.Reports env settings fun format color =>
      (env.discovered settings).render? format color := by
  have hsame : ({ settings with modulePath := none <|> settings.modulePath } : Settings) =
    settings := rfl
  have hreports := reports_discover hsettings hcommand
  rwa [hsame] at hreports

theorem reports_inspected (hsettings : line.settings env = .ok settings)
    (hcommand : line.command = .inspect modules noDiscover hostVersion)
    (h : Inspects env settings modules noDiscover hostVersion report) :
    line.Reports env settings fun format color => report.render? format color := by
  obtain ⟨plugin, hnew, hresult⟩ := h
  refine ⟨hsettings, fun color => ?_⟩
  simp only [CommandLine.report, hcommand, hnew, hresult]

/-- Modules that are all loaded by name are all listed. -/
theorem lists_loadGiven {access : Access} {p q : Plugin LocalHost}
    (h : (loadGiven access modules p).silent = (.ok none, q)) : Lists access modules p q := by
  induction modules generalizing p with
  | nil =>
    obtain rfl : p = q := congrArg Prod.snd h
    exact Plugin.lists_nil rfl rfl
  | cons path modules ih =>
    rw [loadGiven] at h
    obtain ⟨outcome, u, hfile, hrest⟩ := Op.ok_of_bind h
    cases outcome with
    | module => exact (Plugin.lists_loadFile hfile).append (ih hrest)
    | notOurs => simp [Outcome.silent] at hrest

/-- An inspection is one that discovers nothing, after discovery if that is not left out. -/
theorem inspect_discovering (env : Environment) (modules : List Path) :
    inspect env modules false = (do Plugin.beforeScripts env; inspect env modules true) := rfl

theorem lists_inspect_given {p s : Plugin LocalHost}
    (h : (inspect env modules true p).silent = (.ok (.ok report), s)) :
    ∃ q, Lists env.access modules p q ∧ report = RegistryReport.ofPlugin q := by
  rw [inspect, if_pos rfl] at h
  obtain ⟨refused, u, hgiven, h⟩ := Op.ok_of_bind h
  cases refused with
  | some path => simp [Outcome.silent] at h
  | none =>
    obtain ⟨_, q, hafter, h⟩ := Op.ok_of_bind h
    rw [Op.silent_read_bind, Op.silent_read_bind] at h
    obtain ⟨_, r, hemit, h⟩ := Op.ok_of_bind h
    obtain rfl : q = r := congrArg Prod.snd hemit
    rw [Op.silent_read_bind] at h
    obtain ⟨_, _, _, h⟩ := Op.ok_of_bind h
    obtain rfl : RegistryReport.ofPlugin q = report :=
      Except.ok.inj (Except.ok.inj (congrArg Prod.fst h))
    obtain ⟨hsettings, hmodules⟩ := Plugin.sameModules_afterScripts.of_silent hafter
    have hlists := (lists_loadGiven hgiven).append (Plugin.lists_nil hsettings hmodules)
    rw [List.append_nil] at hlists
    exact ⟨q, hlists, rfl⟩

/-- An inspection lists what is discovered, unless that is left out, and what is given. -/
theorem lists_inspect {p : Plugin LocalHost}
    (h : (inspect env modules noDiscover p).result = .ok (.ok report)) :
    ∃ q, Lists env.access ((if noDiscover then [] else
      (p.settings.searchPaths p.registry.host.pluginPath).flatMap
        (Discovery.found env.files p.settings.moduleExtension)) ++ modules) p q ∧
      report = RegistryReport.ofPlugin q := by
  have hsilent : (inspect env modules noDiscover p).silent =
      (.ok (.ok report), (inspect env modules noDiscover p).state) := Prod.ext h rfl
  cases noDiscover with
  | true => exact lists_inspect_given hsilent
  | false =>
    rw [inspect_discovering] at hsilent
    obtain ⟨_, u, hbefore, hgiven⟩ := Op.ok_of_bind hsilent
    obtain ⟨q, hlists, hreport⟩ := lists_inspect_given hgiven
    exact ⟨q, (Plugin.lists_beforeScripts hbefore).append hlists, hreport⟩

/-- Under these settings the command comes to this report. It covers what a command `discover`
reports that has the same configuration and no directories of its own, unless discovery is left out,
and the given modules. -/
structure Agrees (env : Environment) (line : CommandLine) (modules : List Path) (noDiscover : Bool)
    (hostVersion : Option UInt32) (settings : Settings) (report : RegistryReport) : Prop where
  inspected : Inspects env settings modules noDiscover hostVersion report
  reported : line.Reports env settings fun format color => report.render? format color
  discovered : ∀ other : CommandLine, other.config = line.config → other.command = .discover none →
    other.Reports env settings fun format color => (env.discovered settings).render? format color
  covers : report.Covers env.files
    ((if noDiscover then [] else (env.discovered settings).modules) ++ modules)

/-- A run succeeds with a text only. -/
theorem report_of_run {terminal : Bool} (hok : (line.run env terminal).result = .ok ()) :
    ∃ settings color text, line.settings env = .ok settings ∧
      (line.report env color settings).1 = .ok text := by
  rw [run] at hok
  cases hsettings : line.settings env with
  | error fault =>
    rw [hsettings] at hok
    contradiction
  | ok settings =>
    cases htext : (line.report env (terminal && !line.noColor) settings).1 with
    | error failure =>
      simp only [hsettings, htext] at hok
      contradiction
    | ok text => exact ⟨settings, _, text, rfl, htext⟩

theorem inspects_of_report (hcommand : line.command = .inspect modules noDiscover hostVersion)
    {color : Bool} {text : String} (h : (line.report env color settings).1 = .ok text) :
    ∃ report, Inspects env settings modules noDiscover hostVersion report := by
  unfold CommandLine.report at h
  simp only [hcommand] at h
  split at h
  · contradiction
  next plugin hnew =>
  dsimp only at h
  split at h
  · contradiction
  · contradiction
  next report hresult => exact ⟨report, plugin, hnew, hresult⟩

/-- An inspection that succeeds reports the modules that discovery lists and those it is given. -/
theorem inspect_agrees_with_discover {terminal : Bool}
    (hcommand : line.command = .inspect modules noDiscover hostVersion)
    (hok : (line.run env terminal).result = .ok ()) :
    ∃ settings report, Agrees env line modules noDiscover hostVersion settings report := by
  obtain ⟨settings, color, text, hsettings, htext⟩ := report_of_run hok
  obtain ⟨report, hinspects⟩ := inspects_of_report hcommand htext
  refine ⟨settings, report, hinspects, reports_inspected hsettings hcommand hinspects,
    fun other hconfig hother => reports_discovered ?_ hother, ?_⟩
  · rw [CommandLine.settings, hconfig]
    exact hsettings
  · obtain ⟨plugin, hnew, hresult⟩ := hinspects
    rw [Plugin.eq_of_new hnew] at hresult
    obtain ⟨q, hlists, rfl⟩ := lists_inspect hresult
    exact hlists.covers rfl rfl

/-- A directory with a link to one of its modules, a link to the directory, and another module. -/
def linkedFiles : FileSystem :=
  let name (s : String) : Name := (Path.ofString s).bytes
  let sub := .file (name "b.hlto") (.module [.register (.event "Begun")]) .empty
  let entries := .file (name "a.hlto") (.module []) (.link (name "b.hlto") (.ofString "sub/b.hlto")
    (.dir (name "sub") sub .empty))
  ⟨.dir (name "m") entries (.link (name "n") (.ofString "m")
    (.file (name "late.hlto") (.module []) .empty)), ⟨[name "m"]⟩⟩

/-- A process that searches the directory by several names. -/
def linked : Environment where
  vars := [(Settings.modulePathVariable, "/m:../n/. : :sub")]
  accountHome := none
  executable := .ok ⟨[[0x62], [0x65]]⟩
  files := linkedFiles
  now := .epoch

/-- Modules given by name, two of which are discovered as well. -/
def named : List Path := ["a.hlto", "/n/sub/../b.hlto", "/late.hlto"].map .ofString

def inspectNamed : CommandLine where
  command := .inspect named false none
  config := none
  format := .json
  outputFile := none
  noColor := true
  verbose := false

/-- Seven paths that are discovered and three that are given come to three modules. -/
theorem linked_modules_reported : (inspectNamed.run linked false).result = .ok () ∧
    ∃ settings report, Agrees linked inspectNamed named false none settings report ∧
      (linked.discovered settings).modules.length = 7 ∧
      report.modules.map (·.path) = ["/late.hlto", "/m/a.hlto", "/m/sub/b.hlto"].map .ofString ∧
      (report.modules.map (·.path.parts)).Pairwise (· < ·) := by
  have hok : (inspectNamed.run linked false).result = .ok () := by decide +kernel
  obtain ⟨settings, report, h⟩ := inspect_agrees_with_discover rfl hok
  obtain rfl : Settings.ofEnvironment linked = settings := Except.ok.inj h.reported.own
  obtain ⟨plugin, hnew, hresult⟩ := h.inspected
  obtain rfl := Except.ok.inj hnew
  let shown := Except.map (ε := Fault) (Except.map (ε := Failure) fun report : RegistryReport =>
    report.modules.map (·.path))
  have hrows : shown (inspect linked named false
      ⟨.ofEnvironment linked, .new (.new 0 "" true) [], .empty, .registering⟩).result =
        .ok (.ok (["/late.hlto", "/m/a.hlto", "/m/sub/b.hlto"].map .ofString)) := by
    decide +kernel
  have hreport := (congrArg shown hresult).symm.trans hrows
  exact ⟨hok, _, report, h, by decide +kernel, Except.ok.inj (Except.ok.inj hreport),
    h.covers.ascending (by decide +kernel)⟩

end CommandLine

end TrafficAnalyzers
