import TrafficAnalyzers.Host.Local
/-!
A host in memory that records the calls it gets, and whose answer to the next component
initialization can be laid down beforehand.
-/
namespace TrafficAnalyzers

/-- A call to a host, with its answer where it has one. -/
inductive HostCall where
  | addComponent (component : Component)
  | addScriptLocation (name : String)
  | initComponent (component : Nat) (answer : Option Tag)
  | setProtocolEnabled (id : UInt32) (enabled : Bool)
  | setFileEnabled (id : UInt32) (enabled : Bool) (answer : Bool)
  | bindPort (id : UInt32) (transport : HostTransport) (port : UInt16)
  | enqueueEvent (name : String) (args : List EventArg)
  | addEventHandler (name : String)
  | lookupIdent (name module : String) (answer : Option Nat)
  | installIdent (name module : String) (exported : Bool) (answer : Nat)
  | exportIdent (ident : Nat)
  | setIdentType (ident : Nat) (type : IdentType)
  deriving DecidableEq, Repr

/-- The script types of the tags of the three kinds. -/
structure TagTypeNames where
  protocol : String
  file : String
  packet : String
  deriving DecidableEq, Repr

structure ScriptedHost where
  inner : LocalHost
  typeNames : TagTypeNames
  /-- The answer laid down for the next initialization. -/
  pending : Option (Option Tag)
  /-- The tags that were laid down and given out, with the names of their components. -/
  assigned : List (Tag × String)
  /-- The calls since the record was last taken, the latest first. -/
  recorded : List HostCall
  deriving DecidableEq, Repr

namespace ScriptedHost

def ofLocal (inner : LocalHost) : ScriptedHost :=
  ⟨inner, ⟨LocalHost.typeName .protocol, LocalHost.typeName .file, LocalHost.typeName .packet⟩,
    none, [], []⟩

def record (call : HostCall) (h : ScriptedHost) : ScriptedHost :=
  { h with recorded := call :: h.recorded }

/-- The calls in the order they came, and the host with an empty record. -/
def takeRecord (h : ScriptedHost) : List HostCall × ScriptedHost :=
  (h.recorded.reverse, { h with recorded := [] })

def wasAssigned (h : ScriptedHost) (tag : Tag) : Bool := h.assigned.any (·.1 = tag)

def assignedId? (h : ScriptedHost) (kind : Kind) (name : String) : Option UInt32 :=
  (h.assigned.find? fun a => a.1.kind = kind && a.2 = name).map (·.1.id)

/-- Changes the host in memory by `f` and records the call. -/
def change (f : LocalHost → LocalHost) (call : HostCall) (h : ScriptedHost) : ScriptedHost :=
  { h with inner := f h.inner }.record call

/-- Answers from the host in memory and records the call with its answer. -/
def ask {α : Type} (f : LocalHost → α × LocalHost) (call : α → HostCall) (h : ScriptedHost) :
    α × ScriptedHost :=
  let (a, inner) := f h.inner
  (a, { h with inner }.record (call a))

/-- Gives out the answer laid down, without the host in memory, or else asks that host. -/
def initComponent (i : Nat) (h : ScriptedHost) : Option Tag × ScriptedHost :=
  match h.pending with
  | none => h.ask (Host.initComponent i) (.initComponent i)
  | some answer =>
    let name := ((h.inner.components[i]?).map (·.component.name)).getD ""
    let given := answer.toList.map (·, name)
    (answer, { h with pending := none, assigned := h.assigned ++ given }.record
      (.initComponent i answer))

end ScriptedHost

instance : Host ScriptedHost where
  version h := Host.version h.inner
  pluginPath h := Host.pluginPath h.inner
  supportsFileToggle h := Host.supportsFileToggle h.inner
  protocolId? h name := h.assignedId? .protocol name <|> Host.protocolId? h.inner name
  fileId? h name := h.assignedId? .file name <|> Host.fileId? h.inner name
  tagTypeName h
    | .protocol => h.typeNames.protocol
    | .file => h.typeNames.file
    | .packet => h.typeNames.packet
  tagOfValue? h kind value :=
    if h.wasAssigned ⟨kind, value.value⟩ then some ⟨kind, value.value⟩
    else Host.tagOfValue? h.inner kind value
  identHasType h i := Host.identHasType h.inner i
  constant? h name := Host.constant? h.inner name
  addSearchPath dir h := { h with inner := Host.addSearchPath dir h.inner }
  addComponent component h := h.ask (Host.addComponent component) fun _ => .addComponent component
  initComponent := ScriptedHost.initComponent
  addScriptLocation name h := h.change (Host.addScriptLocation name) (.addScriptLocation name)
  setProtocolEnabled id enabled h :=
    h.change (Host.setProtocolEnabled id enabled) (.setProtocolEnabled id enabled)
  setFileEnabled id enabled h :=
    let (found, inner) := Host.setFileEnabled id enabled h.inner
    let answer := found || h.wasAssigned ⟨.file, id⟩
    (answer, { h with inner }.record (.setFileEnabled id enabled answer))
  bindPort id transport port h :=
    h.change (Host.bindPort id transport port) (.bindPort id transport port)
  lookupIdent name module h := h.ask (Host.lookupIdent name module) (.lookupIdent name module)
  installIdent name module exported h :=
    h.ask (Host.installIdent name module exported) (.installIdent name module exported)
  exportIdent i h := h.change (Host.exportIdent i) (.exportIdent i)
  setIdentType i type h := h.change (Host.setIdentType i type) (.setIdentType i type)
  addEventHandler name h := h.change (Host.addEventHandler name) (.addEventHandler name)
  enqueueEvent name args h := h.change (Host.enqueueEvent name args) (.enqueueEvent name args)

end TrafficAnalyzers
