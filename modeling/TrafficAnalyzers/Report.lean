import TrafficAnalyzers.Host.Local
import TrafficAnalyzers.Json.Printer
import TrafficAnalyzers.Plugin
/-! Reports on what a plugin registered and on what discovery finds, and their JSON form. -/
namespace TrafficAnalyzers

inductive Format where
  | human | json
  deriving DecidableEq, Repr

def Format.name : Format → String
  | .human => "human"
  | .json => "json"

instance : Coded Format where
  decode := Json.unitVariant? [("Human", .human), ("Json", .json)]
  encode
    | .human => .string "Human"
    | .json => .string "Json"

structure ModuleRow where
  path : Path
  loadedAt : Timestamp
  deriving DecidableEq, Repr

structure AnalyzerRow where
  kind : Kind
  id : UInt32
  name : String
  parsers : List String
  replaces : Option String
  bindings : List String
  /-- Whether the host has the analyzer enabled, if it knows one of the name. -/
  enabled : Option Bool
  deriving DecidableEq, Repr

structure RegistryReport where
  phase : Phase
  modules : List ModuleRow
  analyzers : List AnalyzerRow
  events : List String
  deriving DecidableEq, Repr

structure DiscoveryReport where
  searchPaths : List String
  modules : List Path
  deriving DecidableEq, Repr

namespace RegistryReport

/-- A parser as it is shown: by its own name, or by the declared one if it is not resolved. -/
def parserCell (declared : String) : Option Parser → String
  | some parser => parser.name
  | none => if declared = "" then "-" else s!"{declared} (unresolved)"

def protocolRow (host : LocalHost) (p : ProtocolAnalyzer) : AnalyzerRow where
  kind := .protocol
  id := p.id
  name := p.decl.name
  parsers := [parserCell p.decl.originator p.originator, parserCell p.decl.responder p.responder]
  replaces := p.replaces.map fun _ => p.decl.replaces
  bindings := p.decl.ports.map Port.text
  enabled := host.isEnabled? .protocol p.decl.name

def fileRow (host : LocalHost) (p : FileAnalyzer) : AnalyzerRow where
  kind := .file
  id := p.id
  name := p.decl.name
  parsers := [parserCell p.decl.parser p.parser]
  replaces := p.replaces.map fun _ => p.decl.replaces
  bindings := p.decl.mimeTypes
  enabled := host.isEnabled? .file p.decl.name

def packetRow (host : LocalHost) (p : PacketAnalyzer) : AnalyzerRow where
  kind := .packet
  id := p.id
  name := p.decl.name
  parsers := [parserCell p.decl.parser p.parser]
  replaces := none
  bindings := []
  enabled := host.isEnabled? .packet p.decl.name

def analyzerRows (host : LocalHost) (a : Analyzers) : List AnalyzerRow :=
  a.protocol.toList.map (protocolRow host) ++ a.file.toList.map (fileRow host)
    ++ a.packet.toList.map (packetRow host)

def ofPlugin (p : Plugin LocalHost) : RegistryReport where
  phase := p.phase
  modules := p.modules.values.map fun m => ⟨m.location.path, m.loadedAt⟩
  analyzers := analyzerRows p.registry.host p.registry.analyzers
  events := p.registry.events.keys

end RegistryReport

/-- A path in JSON, which can only hold text. -/
def Path.toJson? (p : Path) : Option Json := p.text?.map .string

def ModuleRow.toJson? (row : ModuleRow) : Option Json := do
  return .record [("path", ← row.path.toJson?), ("loaded_at", .string row.loadedAt.text)]

def AnalyzerRow.toJson (row : AnalyzerRow) : Json := .record
  [("kind", Coded.encode row.kind), ("type_id", Coded.encode row.id),
   ("name", Coded.encode row.name), ("parsers", Coded.encode row.parsers),
   ("replaces", Coded.encode row.replaces), ("bindings", Coded.encode row.bindings),
   ("enabled", Coded.encode row.enabled)]

def RegistryReport.toJson? (report : RegistryReport) : Option Json := do
  let modules ← report.modules.mapM ModuleRow.toJson?
  return .record
    [("phase", Coded.encode report.phase), ("modules", .array modules),
     ("analyzers", .ofList AnalyzerRow.toJson report.analyzers),
     ("events", Coded.encode report.events)]

def DiscoveryReport.toJson? (report : DiscoveryReport) : Option Json := do
  let modules ← report.modules.mapM Path.toJson?
  return .record
    [("search_paths", Coded.encode report.searchPaths), ("modules", .array modules)]

end TrafficAnalyzers
