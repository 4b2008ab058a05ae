import TrafficAnalyzers.Parser
import TrafficAnalyzers.SlotTable
import TrafficAnalyzers.Tag
/-!
Analyzers of the three kinds: what a module declares, and the record kept of a registered one, whose
parsers are unset until they are resolved.
-/
namespace TrafficAnalyzers

structure ProtocolDecl where
  name : String
  transport : Transport
  ports : List Port
  /-- The parser's name for the originator's side; empty for none. -/
  originator : String
  /-- The parser's name for the responder's side; empty for none. -/
  responder : String
  /-- The analyzer that this one replaces; empty for none. -/
  replaces : String
  deriving DecidableEq, Repr

structure FileDecl where
  name : String
  mimeTypes : List String
  parser : String
  replaces : String
  deriving DecidableEq, Repr

structure PacketDecl where
  name : String
  parser : String
  deriving DecidableEq, Repr

structure ProtocolAnalyzer where
  id : UInt32
  decl : ProtocolDecl
  location : String
  replaces : Option UInt32
  originator : Option Parser
  responder : Option Parser
  deriving DecidableEq, Repr

structure FileAnalyzer where
  id : UInt32
  decl : FileDecl
  location : String
  replaces : Option UInt32
  parser : Option Parser
  deriving DecidableEq, Repr

structure PacketAnalyzer where
  id : UInt32
  decl : PacketDecl
  location : String
  parser : Option Parser
  deriving DecidableEq, Repr

instance : Slotted ProtocolAnalyzer := ⟨ProtocolAnalyzer.id⟩

instance : Slotted FileAnalyzer := ⟨FileAnalyzer.id⟩

instance : Slotted PacketAnalyzer := ⟨PacketAnalyzer.id⟩

/-- The registered analyzers, a table for each kind. -/
structure Analyzers where
  protocol : SlotTable ProtocolAnalyzer
  file : SlotTable FileAnalyzer
  packet : SlotTable PacketAnalyzer
  deriving DecidableEq, Repr

namespace Analyzers

def empty : Analyzers := ⟨.empty, .empty, .empty⟩

/-- The parser for one side of the connections of a protocol analyzer. -/
def protocolParser? (a : Analyzers) (id : UInt32) (originator : Bool) : Option Parser :=
  (a.protocol.get? id).bind fun p => if originator then p.originator else p.responder

def fileParser? (a : Analyzers) (id : UInt32) : Option Parser :=
  (a.file.get? id).bind (·.parser)

def packetParser? (a : Analyzers) (id : UInt32) : Option Parser :=
  (a.packet.get? id).bind (·.parser)

def replacedId? (a : Analyzers) (tag : Tag) : Option UInt32 :=
  match tag.kind with
  | .protocol => (a.protocol.get? tag.id).bind (·.replaces)
  | .file => (a.file.get? tag.id).bind (·.replaces)
  | .packet => none

/-- The number under which the host files the activity of `tag`: that of the replaced analyzer, if
there is one. -/
def reportedId (a : Analyzers) (tag : Tag) : UInt32 := (a.replacedId? tag).getD tag.id

end Analyzers

/-- The script location under which the identifiers of an analyzer are documented. -/
def scriptLocation (analyzer : String) : String := "<Spicy-" ++ analyzer ++ ">"

instance : Coded ProtocolDecl where
  decode json := do
    let fields ← json.fields?
      ["name", "protocol", "ports", "parser_orig", "parser_resp", "replaces"]
    return ⟨← fields.required "name", ← fields.required "protocol", ← fields.optional "ports" [],
      ← fields.optional "parser_orig" "", ← fields.optional "parser_resp" "",
      ← fields.optional "replaces" ""⟩
  encode d := .record
    [("name", Coded.encode d.name), ("protocol", Coded.encode d.transport),
     ("ports", Coded.encode d.ports), ("parser_orig", Coded.encode d.originator),
     ("parser_resp", Coded.encode d.responder), ("replaces", Coded.encode d.replaces)]

instance : Coded FileDecl where
  decode json := do
    let fields ← json.fields? ["name", "mime_types", "parser", "replaces"]
    return ⟨← fields.required "name", ← fields.optional "mime_types" [],
      ← fields.optional "parser" "", ← fields.optional "replaces" ""⟩
  encode d := .record
    [("name", Coded.encode d.name), ("mime_types", Coded.encode d.mimeTypes),
     ("parser", Coded.encode d.parser), ("replaces", Coded.encode d.replaces)]

instance : Coded PacketDecl where
  decode json := do
    let fields ← json.fields? ["name", "parser"]
    return ⟨← fields.required "name", ← fields.optional "parser" ""⟩
  encode d := .record [("name", Coded.encode d.name), ("parser", Coded.encode d.parser)]

end TrafficAnalyzers
