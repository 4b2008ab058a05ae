import TrafficAnalyzers.CommandLine
import TrafficAnalyzers.Report.Human
/-! Running a command: settings, then discovery or inspection, then the report. -/
namespace TrafficAnalyzers

/-- Why a command failed. -/
inductive Failure where
  | fault (cause : Fault)
  | io (cause : IoError)
  /-- A path in the report is no text, so JSON cannot hold it. -/
  | notText
  | notModule (path : Path)
  deriving DecidableEq, Repr

def Failure.message : Failure → String
  | .fault cause => cause.message
  | .io cause => cause.message
  | .notText => "path contains invalid UTF-8 characters"
  | .notModule path => s!"{path.text} is not a module file"

/-- Whether the process has to end with an error. -/
def Failure.isFatal : Failure → Bool
  | .fault cause => cause.isFatal
  | _ => true

/-- What a command comes to: its printed output, the files it leaves, and its traces. -/
structure Execution where
  result : Except Failure Unit
  printed : String
  files : FileSystem
  trace : List Trace

namespace CommandLine

/-- The modules given by name, in order, up to one that is not a module file. -/
def loadGiven (access : Access) : List Path → Op (Plugin LocalHost) (Option Path)
  | [] => pure none
  | p :: ps => do
    match ← Plugin.loadFile access p with
    | .module => loadGiven access ps
    | .notOurs => pure (some p)

/-- Runs a plugin through its whole life, and reports on it before it ends. -/
def inspect (env : Environment) (modules : List Path) (noDiscover : Bool) :
    Op (Plugin LocalHost) (Except Failure RegistryReport) := do
  if noDiscover then pure () else Plugin.beforeScripts env
  match ← loadGiven env.access modules with
  | some p => pure (.error (.notModule p))
  | none => do
    Plugin.afterScripts
    let loaded ← .read (·.modules.size)
    let events ← .read (·.registry.events.size)
    .emit (.log .info s!"Loaded {loaded} modules, {events} events")
    let report ← .read RegistryReport.ofPlugin
    Plugin.finish
    pure (.ok report)

/-- The text of the report that a command asks for. -/
def report (env : Environment) (color : Bool) (line : CommandLine) (settings : Settings) :
    Except Failure String × List Trace :=
  let hostPluginPath := (env.get? Settings.hostPluginPathVariable).getD ""
  match line.command with
  | .discover modulePath =>
    let settings := { settings with modulePath := modulePath <|> settings.modulePath }
    let searchPaths := settings.searchPaths hostPluginPath
    let found := Discovery.searchAll env.files settings.moduleExtension searchPaths ()
    let text := match found.result with
      | .error fault => .error (.fault fault)
      | .ok modules =>
        ((⟨searchPaths, modules⟩ : DiscoveryReport).render? line.format color).elim
          (.error .notText) .ok
    (text, found.trace)
  | .inspect modules noDiscover hostVersion =>
    let version := (hostVersion <|> settings.compiledHostVersion).getD 0
    match Plugin.new settings (LocalHost.new version hostPluginPath true) [] with
    | .error fault => (.error (.fault fault), [])
    | .ok plugin =>
      let inspected := inspect env modules noDiscover plugin
      let text := match inspected.result with
        | .error fault => .error (.fault fault)
        | .ok (.error failure) => .error failure
        | .ok (.ok report) => (report.render? line.format color).elim (.error .notText) .ok
      (text, inspected.trace)

def settings (env : Environment) (line : CommandLine) : Except Fault Settings :=
  match line.config with
  | some p => Settings.load env p
  | none => .ok (.ofEnvironment env)

/-- Prints the report, or writes it to the output file. -/
def run (env : Environment) (terminal : Bool) (line : CommandLine) : Execution :=
  match line.settings env with
  | .error fault => ⟨.error (.fault fault), "", env.files, []⟩
  | .ok settings =>
    let (text, trace) := line.report env (terminal && !line.noColor) settings
    match text with
    | .error failure => ⟨.error failure, "", env.files, trace⟩
    | .ok text =>
      match line.outputFile with
      | none => ⟨.ok (), text, env.files, trace⟩
      | some p =>
        match env.files.writeText p text with
        | .error cause => ⟨.error (.io cause), "", env.files, trace⟩
        | .ok files => ⟨.ok (), "", files, trace⟩

end CommandLine

end TrafficAnalyzers
