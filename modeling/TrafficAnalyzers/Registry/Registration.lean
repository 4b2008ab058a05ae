import TrafficAnalyzers.Registry
/-!
Registering analyzers and parsers: each analyzer gets a component at the host and a record at its
number, and disables the analyzer that it replaces.
-/
namespace TrafficAnalyzers.Registry

variable {H : Type} [Host H]

/-- The number of a new component; the host may refuse one, or answer with one of no use. -/
def addComponent (name : String) (entry : Entry) : Op (Registry H) UInt32 := do
  let component ← askHost (Host.addComponent ⟨name, entry⟩)
  changeHost (Host.addScriptLocation (scriptLocation name))
  let tag ← askHost (Host.initComponent component)
  match tag with
  | some ⟨kind, id⟩ => if kind = entry.kind ∧ id ≠ 0 then pure id else .raise (.missingTag name)
  | none => .raise (.missingTag name)

/-- The host's entry for protocol analyzers over a transport. -/
def entryFor? : Transport → Option Entry
  | .tcp => some .tcp
  | .udp => some .udp
  | .icmp => none
  | .undefined => none

/-- Disables the protocol analyzer that `name` replaces, if the host has it. -/
def replaceProtocol (name replaces : String) : Op (Registry H) (Option UInt32) := do
  if replaces = "" then
    pure none
  else
    match ← query (Host.protocolId? · replaces) with
    | some id => do
      .debug s!"  Replaces existing protocol analyzer {replaces}"
      changeHost (Host.setProtocolEnabled id false)
      pure (some id)
    | none => do
      .debug s!"{name} is supposed to replace {replaces}, but that does not exist"
      pure none

/-- Disables the file analyzer that `name` replaces, if the host has it and can disable it. -/
def replaceFile (name replaces : String) : Op (Registry H) (Option UInt32) := do
  let able ← query Host.supportsFileToggle
  if replaces = "" ∨ able = false then
    pure none
  else
    match ← query (Host.fileId? · replaces) with
    | some id => do
      .debug s!"  Replaces existing file analyzer {replaces}"
      let _ ← askHost (Host.setFileEnabled id false)
      pure (some id)
    | none => do
      .debug s!"{name} is supposed to replace {replaces}, but that does not exist"
      pure none

/-- An analyzer over a transport without an entry is reported and left out. -/
def registerProtocol (decl : ProtocolDecl) : Op (Registry H) Unit := do
  .debug s!"Have Spicy protocol analyzer {decl.name}"
  match entryFor? decl.transport with
  | none =>
    .emit (.log .error (Fault.unsupportedProtocol decl.name decl.transport.name).message)
  | some entry => do
    let replaces ← replaceProtocol decl.name decl.replaces
    let id ← addComponent decl.name entry
    storeProtocol ⟨id, decl, scriptLocation decl.name, replaces, none, none⟩

def registerFile (decl : FileDecl) : Op (Registry H) Unit := do
  .debug s!"Have Spicy file analyzer {decl.name}"
  let replaces ← replaceFile decl.name decl.replaces
  let id ← addComponent decl.name .file
  storeFile ⟨id, decl, scriptLocation decl.name, replaces, none⟩

/-- Packet analyzers replace nothing. -/
def registerPacket (decl : PacketDecl) : Op (Registry H) Unit := do
  .debug s!"Have Spicy packet analyzer {decl.name}"
  let id ← addComponent decl.name .packet
  storePacket ⟨id, decl, scriptLocation decl.name, none⟩

def registerParser (parser : Parser) : Op (Registry H) Unit := do
  .emit (.runtime (.registered parser.name))
  .debug s!"Registering parser {parser.name}"
  .update fun r => { r with runtime := r.runtime.register parser }

end TrafficAnalyzers.Registry
