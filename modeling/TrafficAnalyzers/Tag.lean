import TrafficAnalyzers.Json.Coded
/-! Analyzer kinds and the numbers a host gives to analyzers of each kind. -/
namespace TrafficAnalyzers

inductive Kind where
  | protocol | file | packet
  deriving DecidableEq, Repr

/-- A host's handle of an analyzer; number zero is never given to one. -/
structure Tag where
  kind : Kind
  id : UInt32
  deriving DecidableEq, Repr

/-- A script-level enum value: the name of its type and its number. -/
structure EnumValue where
  typeName : String
  value : UInt32
  deriving DecidableEq, Repr

def Kind.all : List Kind := [.protocol, .file, .packet]

def Kind.name : Kind → String
  | .protocol => "protocol"
  | .file => "file"
  | .packet => "packet"

def Kind.jsonNames : List (String × Kind) :=
  [("Protocol", .protocol), ("File", .file), ("Packet", .packet)]

def Kind.jsonName : Kind → String
  | .protocol => "Protocol"
  | .file => "File"
  | .packet => "Packet"

instance : Coded Kind where
  decode := Json.unitVariant? Kind.jsonNames
  encode k := .string k.jsonName

instance : Coded Tag where
  decode json := do
    let (name, content) ← json.variant?
    return ⟨← Kind.jsonNames.lookup name, ← Coded.decode (← content)⟩
  encode t := .tagged t.kind.jsonName (Coded.encode t.id)

def Tag.text (t : Tag) : String := s!"{t.kind.name} {t.id}"

instance : Coded EnumValue where
  decode json := do
    let fields ← json.fields? ["type_name", "value"]
    return ⟨← fields.required "type_name", ← fields.required "value"⟩
  encode v := .record [("type_name", Coded.encode v.typeName), ("value", Coded.encode v.value)]

end TrafficAnalyzers
