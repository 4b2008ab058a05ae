import TrafficAnalyzers.Port
import TrafficAnalyzers.Tag
/-!
The host engine as the plugin sees it: it numbers analyzers, turns them on and off, binds ports and
keeps script identifiers and events.
-/
namespace TrafficAnalyzers

/-- How the host starts an analyzer of a component. -/
inductive Entry where
  | tcp | udp | file | packet
  deriving DecidableEq, Repr

def Entry.kind : Entry → Kind
  | .tcp => .protocol
  | .udp => .protocol
  | .file => .file
  | .packet => .packet

def Entry.jsonName : Entry → String
  | .tcp => "TcpAnalyzer"
  | .udp => "UdpAnalyzer"
  | .file => "FileAnalyzer"
  | .packet => "PacketAnalyzer"

structure Component where
  name : String
  entry : Entry
  deriving DecidableEq, Repr

/-- The type of a script identifier. -/
inductive IdentType where
  | enum (name : String) (labels : List (String × Int64))
  | event
  /-- Stands in for the type of an event that no script handles. -/
  | placeholder
  deriving DecidableEq, Repr

inductive EventArg where
  | fileTag (id : UInt32)
  | text (value : String)
  deriving DecidableEq, Repr

/-- The module of identifiers without a namespace. -/
def globalModule : String := "GLOBAL"

/-- The event by which a script binds a file analyzer to a MIME type. -/
def mimeTypeEvent : String := "spicy_analyzer_for_mime_type"

/-- What a host answers and how its state changes. Identifier and component numbers are its own. -/
class Host (H : Type) where
  version : H → UInt32
  /-- The host's own list of directories for plugins. -/
  pluginPath : H → String
  /-- Older hosts cannot disable file analyzers. -/
  supportsFileToggle : H → Bool
  protocolId? : H → String → Option UInt32
  fileId? : H → String → Option UInt32
  /-- The script type of tags of a kind. -/
  tagTypeName : H → Kind → String
  /-- The tag a script value stands for, if a component carries it. -/
  tagOfValue? : H → Kind → EnumValue → Option Tag
  identHasType : H → Nat → Bool
  constant? : H → String → Option Bool
  addSearchPath : String → H → H
  addComponent : Component → H → Nat × H
  /-- The tag given to a component, if the host gives it one. -/
  initComponent : Nat → H → Option Tag × H
  addScriptLocation : String → H → H
  setProtocolEnabled : UInt32 → Bool → H → H
  /-- Answers whether a component carries the tag. -/
  setFileEnabled : UInt32 → Bool → H → Bool × H
  bindPort : UInt32 → HostTransport → UInt16 → H → H
  lookupIdent : (name module : String) → H → Option Nat × H
  installIdent : (name module : String) → (exported : Bool) → H → Nat × H
  exportIdent : Nat → H → H
  setIdentType : Nat → IdentType → H → H
  addEventHandler : String → H → H
  enqueueEvent : String → List EventArg → H → H

instance : Coded Entry where
  decode := Json.unitVariant?
    [("TcpAnalyzer", .tcp), ("UdpAnalyzer", .udp), ("FileAnalyzer", .file),
     ("PacketAnalyzer", .packet)]
  encode e := .string e.jsonName

instance : Coded Component where
  decode json := do
    let fields ← json.fields? ["name", "entry"]
    return ⟨← fields.required "name", ← fields.required "entry"⟩
  encode c := .record [("name", Coded.encode c.name), ("entry", Coded.encode c.entry)]

instance : Coded IdentType where
  decode json :=
    match json.variant? with
    | some ("Enum", some content) => do
      let fields ← content.fields? ["name", "labels"]
      return .enum (← fields.required "name") (← fields.required "labels")
    | _ => json.unitVariant? [("Event", .event), ("DummyEvent", .placeholder)]
  encode
    | .enum name labels =>
      .tagged "Enum" (.record [("name", Coded.encode name), ("labels", Coded.encode labels)])
    | .event => .string "Event"
    | .placeholder => .string "DummyEvent"

instance : Coded EventArg where
  decode json :=
    match json.variant? with
    | some ("FileTag", some content) => (Coded.decode content).map .fileTag
    | some ("String", some content) => (Coded.decode content).map .text
    | _ => none
  encode
    | .fileTag id => .tagged "FileTag" (Coded.encode id)
    | .text value => .tagged "String" (Coded.encode value)

end TrafficAnalyzers
