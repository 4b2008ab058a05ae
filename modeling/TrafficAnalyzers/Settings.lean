import TrafficAnalyzers.Environment
import TrafficAnalyzers.Json.Reader
import TrafficAnalyzers.SearchPath
/-!
The plugin's settings: defaults, a configuration file on top of them, and environment variables on
top of both.
-/
namespace TrafficAnalyzers

structure Settings where
  /-- Replaces the default lists of directories for modules, unless it is empty. -/
  modulePath : Option String
  /-- Library directories searched before the plugin's own. -/
  libraryPath : Option String
  moduleDirectory : Path
  /-- Where the plugin lives, if not two levels above the running executable. -/
  pluginDirectory : Option Path
  compiledHostVersion : Option UInt32
  moduleExtension : String
  /-- The extensions of files that would have to be compiled to be loaded. -/
  sourceExtensions : List String
  deriving DecidableEq, Repr

namespace Settings

def modulePathVariable : String := "SPICY_MODULE_PATH"

def libraryPathVariable : String := "ZEEK_SPICY_PATH"

def hostPluginPathVariable : String := "ZEEK_PLUGIN_PATH"

def default (env : Environment) : Settings where
  modulePath := none
  libraryPath := none
  moduleDirectory :=
    ((env.dataDirectory?.getD (.ofString "/usr/local/share")).join (.ofString "spicy")).join
      (.ofString "modules")
  pluginDirectory := none
  compiledHostVersion := none
  moduleExtension := "hlto"
  sourceExtensions := ["spicy", "evt", "hlt"]

/-- A variable that is set takes the place of a setting, even if it is empty. -/
def withVariables (lookup : String → Option String) (s : Settings) : Settings :=
  { s with
    modulePath := lookup modulePathVariable <|> s.modulePath
    libraryPath := lookup libraryPathVariable <|> s.libraryPath }

def ofEnvironment (env : Environment) : Settings := (default env).withVariables env.get?

/-- The override of the module path, if it is not empty. -/
def modulePathOverride? (s : Settings) : Option String := s.modulePath.filter (!·.isEmpty)

/-- The lists of directories that are searched for modules. -/
def searchPaths (s : Settings) (hostPluginPath : String) : List String :=
  match s.modulePathOverride? with
  | some paths => [paths]
  | none => [s.moduleDirectory.text, hostPluginPath]

/-- The plugin's own directory. -/
def ownDirectory (s : Settings) (executable : Except IoError Location) : Except Fault Path :=
  match s.pluginDirectory with
  | some dir => .ok dir
  | none =>
    match executable with
    | .error cause => .error (.ownPathUnknown cause)
    | .ok location =>
      match location.parent?.bind Location.parent? with
      | some dir => .ok dir.path
      | none =>
        let words := location.path.text
        .error (.ownPathUnknown (.other s!"{words} has no parent directory"))

def isModuleFile (s : Settings) (p : Path) : Bool :=
  p.extension? = some (Text.Utf8.encode s.moduleExtension.toList)

def isSourceFile (s : Settings) (p : Path) : Bool :=
  match p.extension? with
  | some extension => s.sourceExtensions.any fun e => Text.Utf8.encode e.toList = extension
  | none => false

end Settings

instance : Coded Path where
  decode json := (Coded.decode json : Option String).map Path.ofString
  encode p := .string p.text

namespace Settings

/-- Settings read from JSON; what is not given keeps its default. -/
def ofJson? (default : Settings) (json : Json) : Option Settings := do
  let fields ← json.fields?
    ["module_path_override", "library_path_override", "plugin_module_directory",
     "plugin_directory", "compiled_host_version", "module_extension", "source_extensions"]
  return {
    modulePath := ← fields.optional "module_path_override" default.modulePath
    libraryPath := ← fields.optional "library_path_override" default.libraryPath
    moduleDirectory := ← fields.optional "plugin_module_directory" default.moduleDirectory
    pluginDirectory := ← fields.optional "plugin_directory" default.pluginDirectory
    compiledHostVersion := ← fields.optional "compiled_host_version" default.compiledHostVersion
    moduleExtension := ← fields.optional "module_extension" default.moduleExtension
    sourceExtensions := ← fields.optional "source_extensions" default.sourceExtensions }

def toJson (s : Settings) : Json := .record
  [("module_path_override", Coded.encode s.modulePath),
   ("library_path_override", Coded.encode s.libraryPath),
   ("plugin_module_directory", Coded.encode s.moduleDirectory),
   ("plugin_directory", Coded.encode s.pluginDirectory),
   ("compiled_host_version", Coded.encode s.compiledHostVersion),
   ("module_extension", Coded.encode s.moduleExtension),
   ("source_extensions", Coded.encode s.sourceExtensions)]

def parse? (default : Settings) (text : String) : Option Settings :=
  (Json.parse? text).bind default.ofJson?

/-- Reads a configuration file, then applies the environment's variables. -/
def load (env : Environment) (p : Path) : Except Fault Settings :=
  match env.files.readText p with
  | .error cause => .error (.settingsUnreadable p cause)
  | .ok text =>
    match (default env).parse? text with
    | none => .error (.settingsMalformed p "not a JSON object of settings")
    | some s => .ok (s.withVariables env.get?)

end Settings

end TrafficAnalyzers
