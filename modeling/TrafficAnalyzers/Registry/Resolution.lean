import TrafficAnalyzers.Registry
/-!
Resolution: parser names become parsers, and every analyzer is bound to its ports and MIME types.
It stops at the first fault, and what was bound until then stays bound.
-/
namespace TrafficAnalyzers.Registry

variable {H : Type} [Host H]

/-- The first parser of that very name; the empty name asks for none. -/
def parserNamed (analyzer name : String) (parsers : List Parser) : Except Fault (Option Parser) :=
  if name = "" then .ok none
  else match parsers.find? (·.name = name) with
    | some parser => .ok (some parser)
    | none => .error (.unknownParser name analyzer)

def findParser (analyzer name : String) (parsers : List Parser) : Op (Registry H) (Option Parser) :=
  .ofExcept (parserNamed analyzer name parsers)

/-- The number that the host finds by an analyzer's name. -/
def idByName (find : H → String → Option UInt32) (name : String) : Op (Registry H) UInt32 := do
  match ← query (find · name) with
  | some id => pure id
  | none => .raise (.missingTag name)

def bindPort (id : UInt32) (port : Port) : Op (Registry H) Unit := do
  .debug s!"  Scheduling analyzer for port {port.text}"
  match port.transport.host? with
  | some transport => changeHost (Host.bindPort id transport port.number)
  | none => .raise (.unsupportedTransport port.text)

/-- Scripts bind MIME types, so this queues the event that makes them do it. -/
def bindMimeType (id : UInt32) (mimeType : String) : Op (Registry H) Unit := do
  .debug s!"  Scheduling analyzer for MIME type {mimeType}"
  changeHost (Host.enqueueEvent mimeTypeEvent [.fileTag id, .text mimeType])

/-- The declared ports, then those of the parser for the responder's side. -/
def resolveProtocol (parsers : List Parser) (p : ProtocolAnalyzer) : Op (Registry H) Unit := do
  .debug s!"Registering {p.decl.transport.name} protocol analyzer {p.decl.name} with host"
  let originator ← findParser p.decl.name p.decl.originator parsers
  storeProtocol { p with originator }
  let responder ← findParser p.decl.name p.decl.responder parsers
  storeProtocol { p with originator, responder }
  let id ← idByName Host.protocolId? p.decl.name
  p.decl.ports.forM (bindPort id)
  ((responder.map Parser.responderPorts).getD []).forM (bindPort id)

/-- The declared MIME types, then those of the parser. -/
def resolveFile (parsers : List Parser) (p : FileAnalyzer) : Op (Registry H) Unit := do
  .debug s!"Registering file analyzer {p.decl.name} with host"
  let parser ← findParser p.decl.name p.decl.parser parsers
  storeFile { p with parser }
  let id ← idByName Host.fileId? p.decl.name
  (p.decl.mimeTypes ++ (parser.map (·.mimeTypes)).getD []).forM (bindMimeType id)

/-- The host has nothing to bind packet analyzers to. -/
def resolvePacket (parsers : List Parser) (p : PacketAnalyzer) : Op (Registry H) Unit := do
  .debug s!"Registering packet analyzer {p.decl.name} with host"
  let parser ← findParser p.decl.name p.decl.parser parsers
  storePacket { p with parser }

/-- Protocol, file and packet analyzers in this order, each kind by ascending number. -/
def resolve (parsers : List Parser) : Op (Registry H) Unit := do
  let analyzers ← .read (·.analyzers)
  analyzers.protocol.toList.forM (resolveProtocol parsers)
  analyzers.file.toList.forM (resolveFile parsers)
  analyzers.packet.toList.forM (resolvePacket parsers)

end TrafficAnalyzers.Registry
