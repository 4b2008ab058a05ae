import TrafficAnalyzers.Registry.Identifiers
import TrafficAnalyzers.Registry.Registration
/-! What a module does when it registers itself: a list of steps, which ends at the first fault. -/
namespace TrafficAnalyzers

/-- A call by which a module or the plugin registers something. -/
inductive Registration where
  | parser (parser : Parser)
  | protocol (decl : ProtocolDecl)
  | file (decl : FileDecl)
  | packet (decl : PacketDecl)
  | event (name : String)
  | enumType (space id : String) (labels : List (String × Int64))
  deriving DecidableEq, Repr

inductive Step where
  | register (registration : Registration)
  /-- The module gives up. -/
  | fail (fault : Fault)
  deriving DecidableEq, Repr

abbrev Script := List Step

namespace Registry

variable {H : Type} [Host H]

def register : Registration → Op (Registry H) Unit
  | .parser parser => registerParser parser
  | .protocol decl => registerProtocol decl
  | .file decl => registerFile decl
  | .packet decl => registerPacket decl
  | .event name => registerEvent name
  | .enumType space id labels => registerEnumType space id labels

def perform : Step → Op (Registry H) Unit
  | .register registration => register registration
  | .fail fault => .raise fault

def run (script : Script) : Op (Registry H) Unit := script.forM perform

end Registry

/-- A step is written as an object with one member, named for the call. -/
def Step.ofJson? (json : Json) : Option Step :=
  match json.variant? with
  | some ("parser", some content) => (Coded.decode content).map (.register ∘ .parser)
  | some ("protocol", some content) => (Coded.decode content).map (.register ∘ .protocol)
  | some ("file", some content) => (Coded.decode content).map (.register ∘ .file)
  | some ("packet", some content) => (Coded.decode content).map (.register ∘ .packet)
  | some ("event", some content) => (Coded.decode content).map (.register ∘ .event)
  | some ("enum", some (.array [space, id, labels])) => do
    return .register (.enumType (← Coded.decode space) (← Coded.decode id) (← Coded.decode labels))
  | some ("fail", some content) => (Coded.decode content).map (.fail ∘ .missingTag)
  | _ => none

/-- A script is written as the array of its steps. -/
def Script.ofJson? : Json → Option Script
  | .array steps => steps.mapM Step.ofJson?
  | _ => none

end TrafficAnalyzers
