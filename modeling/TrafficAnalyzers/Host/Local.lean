import TrafficAnalyzers.Host
import TrafficAnalyzers.SortedMap
/-!
A host in memory. It counts the analyzers of each kind from one and finds components and identifiers
by searching from the oldest.
-/
namespace TrafficAnalyzers

structure ComponentRecord where
  component : Component
  tag : Option Tag
  enabled : Bool
  builtin : Bool
  deriving DecidableEq, Repr

/-- A script identifier under its qualified name; it has no type until a script or event gives one. -/
structure Ident where
  name : String
  exported : Bool
  type : Option IdentType
  deriving DecidableEq, Repr

structure PortBinding where
  id : UInt32
  transport : HostTransport
  port : UInt16
  deriving DecidableEq, Repr

structure QueuedEvent where
  name : String
  args : List EventArg
  deriving DecidableEq, Repr

structure LocalHost where
  version : UInt32
  pluginPath : String
  fileToggle : Bool
  nextProtocol : UInt32
  nextFile : UInt32
  nextPacket : UInt32
  components : List ComponentRecord
  searchPath : List String
  scriptLocations : List String
  portBindings : List PortBinding
  queuedEvents : List QueuedEvent
  idents : List Ident
  eventHandlers : SortedMap String Unit
  constants : SortedMap String Bool
  deriving DecidableEq, Repr

namespace LocalHost

/-- A host that knows no analyzers yet; number zero stays free. -/
def new (version : UInt32) (pluginPath : String) (fileToggle : Bool) : LocalHost where
  version
  pluginPath
  fileToggle
  nextProtocol := 1
  nextFile := 1
  nextPacket := 1
  components := []
  searchPath := []
  scriptLocations := []
  portBindings := []
  queuedEvents := []
  idents := []
  eventHandlers := .empty
  constants := .empty

/-- The next free number of a kind. -/
def allocate (kind : Kind) (h : LocalHost) : Tag × LocalHost :=
  match kind with
  | .protocol => (⟨.protocol, h.nextProtocol⟩, { h with nextProtocol := h.nextProtocol + 1 })
  | .file => (⟨.file, h.nextFile⟩, { h with nextFile := h.nextFile + 1 })
  | .packet => (⟨.packet, h.nextPacket⟩, { h with nextPacket := h.nextPacket + 1 })

/-- Adds an analyzer that the host ships with, enabled and with its number. -/
def addBuiltin (name : String) (entry : Entry) (h : LocalHost) : UInt32 × LocalHost :=
  let (tag, h) := h.allocate entry.kind
  (tag.id, { h with components := h.components ++ [⟨⟨name, entry⟩, some tag, true, true⟩] })

/-- The oldest component of a kind and name. -/
def component? (h : LocalHost) (kind : Kind) (name : String) : Option ComponentRecord :=
  h.components.find? fun c => c.component.entry.kind = kind && c.component.name = name

def isEnabled? (h : LocalHost) (kind : Kind) (name : String) : Option Bool :=
  (h.component? kind name).map (·.enabled)

/-- The number of the named analyzer, if its tag is of the kind that was asked for. -/
def id? (h : LocalHost) (kind : Kind) (name : String) : Option UInt32 :=
  ((h.component? kind name).bind (·.tag)).bind fun tag => if tag.kind = kind then some tag.id else none

def carries (h : LocalHost) (tag : Tag) : Bool := h.components.any (·.tag = some tag)

/-- Sets the first component that carries the tag. -/
def enableIn (tag : Tag) (enabled : Bool) : List ComponentRecord → List ComponentRecord
  | [] => []
  | c :: cs =>
    if c.tag = some tag then { c with enabled } :: cs else c :: enableIn tag enabled cs

def setEnabled (tag : Tag) (enabled : Bool) (h : LocalHost) : LocalHost :=
  { h with components := enableIn tag enabled h.components }

def typeName : Kind → String
  | .protocol => "Analyzer::Tag"
  | .file => "Files::Tag"
  | .packet => "PacketAnalyzer::Tag"

/-- The value by which scripts name a tag. -/
def enumValue (tag : Tag) : EnumValue := ⟨typeName tag.kind, tag.id⟩

/-- A number stays with its component once given. -/
def initComponent (i : Nat) (h : LocalHost) : Option Tag × LocalHost :=
  match h.components[i]? with
  | none => (none, h)
  | some c =>
    match c.tag with
    | some tag => (some tag, h)
    | none =>
      let (tag, h) := h.allocate c.component.entry.kind
      (some tag, { h with components := h.components.modify i ({ · with tag := some tag }) })

/-- Whether `::` occurs. -/
def hasNamespace : List Char → Bool
  | ':' :: ':' :: _ => true
  | _ :: cs => hasNamespace cs
  | [] => false

/-- The name with its module, unless it has one already or the module is the global one. -/
def qualify (name module : String) : String :=
  if hasNamespace name.toList || module = globalModule then name else module ++ "::" ++ name

def ident? (h : LocalHost) (qualified : String) : Option Ident :=
  h.idents.find? (·.name = qualified)

def identIndex? (h : LocalHost) (qualified : String) : Option Nat :=
  h.idents.findIdx? (·.name = qualified)

def installIdent (name module : String) (exported : Bool) (h : LocalHost) : Nat × LocalHost :=
  (h.idents.length, { h with idents := h.idents ++ [⟨qualify name module, exported, none⟩] })

def modifyIdent (i : Nat) (f : Ident → Ident) (h : LocalHost) : LocalHost :=
  { h with idents := h.idents.modify i f }

/-- Gives an identifier the type of events, as a script does that defines its handler. -/
def defineHandler (qualified : String) (h : LocalHost) : LocalHost :=
  match h.identIndex? qualified with
  | none => h
  | some i => h.modifyIdent i ({ · with type := some .event })

def setConstant (name : String) (value : Bool) (h : LocalHost) : LocalHost :=
  { h with constants := h.constants.insert name value }

end LocalHost

instance : Host LocalHost where
  version h := h.version
  pluginPath h := h.pluginPath
  supportsFileToggle h := h.fileToggle
  protocolId? h name := h.id? .protocol name
  fileId? h name := h.id? .file name
  tagTypeName _ kind := LocalHost.typeName kind
  tagOfValue? h kind value := if h.carries ⟨kind, value.value⟩ then some ⟨kind, value.value⟩ else none
  identHasType h i := (h.idents[i]?.bind (·.type)).isSome
  constant? h name := h.constants.find? name
  addSearchPath dir h := { h with searchPath := h.searchPath ++ [dir] }
  addComponent component h :=
    (h.components.length, { h with components := h.components ++ [⟨component, none, true, false⟩] })
  initComponent := LocalHost.initComponent
  addScriptLocation name h :=
    if h.scriptLocations.contains name then h
    else { h with scriptLocations := h.scriptLocations ++ [name] }
  setProtocolEnabled id enabled h := h.setEnabled ⟨.protocol, id⟩ enabled
  setFileEnabled id enabled h := (h.carries ⟨.file, id⟩, h.setEnabled ⟨.file, id⟩ enabled)
  bindPort id transport port h := { h with portBindings := h.portBindings ++ [⟨id, transport, port⟩] }
  lookupIdent name module h := (h.identIndex? (LocalHost.qualify name module), h)
  installIdent := LocalHost.installIdent
  exportIdent i h := h.modifyIdent i ({ · with exported := true })
  setIdentType i type h := h.modifyIdent i ({ · with type := some type })
  addEventHandler name h := { h with eventHandlers := h.eventHandlers.insert name () }
  enqueueEvent name args h := { h with queuedEvents := h.queuedEvents ++ [⟨name, args⟩] }

end TrafficAnalyzers
