import TrafficAnalyzers.Discovery
import TrafficAnalyzers.Registry.Resolution
import TrafficAnalyzers.Registry.Toggle
import TrafficAnalyzers.Settings
/-!
The plugin: it loads each module once, lets it register itself, and resolves all analyzers when the
host has read its scripts. After that nothing more is registered.
-/
namespace TrafficAnalyzers

inductive Phase where
  /-- Modules load and register analyzers. -/
  | registering
  /-- Parsers are resolved and bound. -/
  | resolved
  /-- The parser runtime has been stopped. -/
  | done
  deriving DecidableEq, Repr

def Phase.name : Phase → String
  | .registering => "Registering"
  | .resolved => "Resolved"
  | .done => "Done"

instance : Coded Phase where
  decode := Json.unitVariant?
    [("Registering", .registering), ("Resolved", .resolved), ("Done", .done)]
  encode p := .string p.name

structure LoadedModule where
  location : Location
  loadedAt : Timestamp
  deriving DecidableEq, Repr

/-- How module files are reached: what a path denotes, and what a module does. -/
structure Access where
  canonicalize : Path → Except IoError Location
  openModule : Location → Except OpenError Script
  now : Timestamp

def FileSystem.openModule (fs : FileSystem) (location : Location) : Except OpenError Script :=
  match fs.root.descend location.names with
  | some (.file (.module script)) => .ok script
  | some (.file .library) => .error (.noEntryPoint "undefined symbol")
  | _ => .error (.notLoadable "not a loadable library")

def Environment.access (env : Environment) : Access :=
  ⟨env.files.canonicalize, env.files.openModule, env.now⟩

structure Plugin (H : Type) where
  settings : Settings
  registry : Registry H
  /-- The modules that were opened, also those whose registration failed. -/
  modules : SortedMap Location LoadedModule
  phase : Phase
  deriving DecidableEq, Repr

/-- What became of a file that the host offers to the plugin. -/
inductive FileOutcome where
  | module
  | notOurs
  deriving DecidableEq, Repr

def enablePrintConstant : String := "Spicy::enable_print"

def abortOnExceptionsConstant : String := "Spicy::abort_on_exceptions"

def showBacktracesConstant : String := "Spicy::show_backtraces"

namespace Plugin

variable {H α : Type} [Host H]

/-- A plugin compiled for one host version accepts no other. -/
def new (settings : Settings) (host : H) (failures : List RuntimeFailure) :
    Except Fault (Plugin H) :=
  match settings.compiledHostVersion with
  | some compiled =>
    if compiled = Host.version host then .ok ⟨settings, .new host failures, .empty, .registering⟩
    else .error (.versionMismatch (Host.version host) compiled)
  | none => .ok ⟨settings, .new host failures, .empty, .registering⟩

def onRegistry (x : Op (Registry H) α) : Op (Plugin H) α :=
  .within (·.registry) (fun registry p => { p with registry }) x

/-- Refuses an operation once the parsers are resolved. -/
def whileRegistering (operation : Operation) : Op (Plugin H) Unit := do
  if (← .read (·.phase)) = .registering then pure () else .raise (.registrationClosed operation)

def addLibraryPaths (dirs : String) : Op (Plugin H) Unit :=
  (SearchPath.entries dirs).forM fun dir => onRegistry (Registry.changeHost (Host.addSearchPath dir))

/-- Opens a module unless it was opened before, and lets it register itself. -/
def loadOnce (access : Access) (p : Path) : Op (Plugin H) Bool := do
  let location ← .ofExcept ((access.canonicalize p).mapError (.unresolvedPath p))
  let shown := location.path.text
  if ← .read (·.modules.contains location) then do
    .debug s!"Ignoring duplicate loading request for {shown}"
    pure false
  else do
    .debug s!"Loading {shown}"
    let script ← .ofExcept ((access.openModule location).mapError (.moduleNotOpened location.path))
    .emit (.opened location)
    .update fun p => { p with modules := p.modules.insert location ⟨location, access.now⟩ }
    .emit (.registering location)
    onRegistry (Registry.run script)
    .emit (.registered location)
    pure true

/-- Whether what a path denotes has been opened as a module. -/
def isLoaded (p : Plugin H) (access : Access) (path : Path) : Bool :=
  match access.canonicalize path with
  | .ok location => p.modules.contains location
  | .error _ => false

/-- Loads one module; answers whether it had not been loaded before. -/
def load (access : Access) (p : Path) : Op (Plugin H) Bool := do
  whileRegistering .loadModule
  loadOnce access p

/-- Loads every module found in the directories of a list. -/
def loadBelow (env : Environment) (paths : String) : Op (Plugin H) Unit := do
  let found ← Discovery.search env.files (← .read (·.settings.moduleExtension)) paths
  found.forM fun p => do
    let _ ← load env.access p

/-- Loads every module found in the default directories. -/
def discover (env : Environment) : Op (Plugin H) Unit := do
  let lists ← .read fun p => p.settings.searchPaths (Host.pluginPath p.registry.host)
  lists.forM (loadBelow env)

/-- What the plugin does before the host reads its scripts. -/
def beforeScripts (env : Environment) : Op (Plugin H) Unit := do
  .debug "Beginning pre-script initialization"
  let extra ← .read (·.settings.libraryPath)
  extra.toList.forM addLibraryPaths
  let own ← .ofExcept ((← .read (·.settings)).ownDirectory env.executable)
  addLibraryPaths (own.join (.ofString "spicy")).text
  discover env
  .debug "Done with pre-script initialization"

/-- The host's hook for loading a file by name. -/
def loadFile (access : Access) (p : Path) : Op (Plugin H) FileOutcome := do
  let settings ← .read (·.settings)
  if settings.isModuleFile p then do
    let _ ← load access p
    pure .module
  else if settings.isSourceFile p then .raise (.needsCompiler p)
  else pure .notOurs

/-- The runtime options, from constants of the host's scripts. -/
def runtimeOptions (host : H) : RuntimeOptions where
  enablePrint := (Host.constant? host enablePrintConstant).getD false
  abortOnExceptions := (Host.constant? host abortOnExceptionsConstant).getD false
  showBacktraces := (Host.constant? host showBacktracesConstant).getD false

def startRuntime : Op (Registry H) Unit := do
  let options ← Registry.query runtimeOptions
  let started ← .answer fun r =>
    let given := r.runtime.start options
    (given.1, { r with runtime := given.2 })
  match started with
  | .ok () => .emit (.runtime .started)
  | .error failure => do
    .emit (.runtime .startFailed)
    .raise (.runtimeNotStarted failure)

/-- What the plugin does when the host has read its scripts: the second phase of registration. -/
def afterScripts : Op (Plugin H) Unit := do
  whileRegistering .finishRegistration
  .debug "Beginning post-script initialization"
  onRegistry Registry.assignPlaceholders
  .debug "Initializing parser runtime"
  onRegistry startRuntime
  let parsers ← .read (·.registry.runtime.parsers)
  onRegistry (Registry.resolve parsers)
  .update fun p => { p with phase := .resolved }
  .debug "Done with post-script initialization"

/-- Stops the parser runtime, once. -/
def finish : Op (Plugin H) Unit := do
  if (← .read (·.phase)) = .done then
    pure ()
  else do
    .debug "Shutting down parser runtime"
    .emit (.runtime .stopped)
    .update fun p => { p with
      registry := { p.registry with runtime := p.registry.runtime.stop }
      phase := .done }

/-- The operation that a direct registration is. -/
def operationOf : Registration → Operation
  | .parser _ => .registerParser
  | .protocol _ => .registerProtocolAnalyzer
  | .file _ => .registerFileAnalyzer
  | .packet _ => .registerPacketAnalyzer
  | .event _ => .registerEvent
  | .enumType .. => .registerEnumType

/-- Registers something directly, not through a module. -/
def register (registration : Registration) : Op (Plugin H) Unit := do
  whileRegistering (operationOf registration)
  onRegistry (Registry.register registration)

def toggle (tag : Tag) (enable : Bool) : Op (Plugin H) Bool := onRegistry (Registry.toggle tag enable)

def toggleValue (value : EnumValue) (enable : Bool) : Op (Plugin H) Bool :=
  onRegistry (Registry.toggleValue value enable)

end Plugin

end TrafficAnalyzers
