import TrafficAnalyzers.Json.Coded
/-! Ports with their transport protocols, and the sides of a connection. -/
namespace TrafficAnalyzers

/-- The transport of a port or of a protocol analyzer, as a module declares it. -/
inductive Transport where
  | tcp | udp | icmp | undefined
  deriving DecidableEq, Repr

/-- A transport to which a host binds analyzers. -/
inductive HostTransport where
  | tcp | udp | icmp
  deriving DecidableEq, Repr

structure Port where
  number : UInt16
  transport : Transport
  deriving DecidableEq, Repr

/-- The sides of a connection for which a parser declares a port. -/
inductive Side where
  | originator | responder | both
  deriving DecidableEq, Repr

def Transport.name : Transport → String
  | .tcp => "tcp"
  | .udp => "udp"
  | .icmp => "icmp"
  | .undefined => "undef"

/-- An undefined transport has no counterpart at the host. -/
def Transport.host? : Transport → Option HostTransport
  | .tcp => some .tcp
  | .udp => some .udp
  | .icmp => some .icmp
  | .undefined => none

def Port.text (p : Port) : String := s!"{p.number}/{p.transport.name}"

def Side.includesResponder : Side → Bool
  | .originator => false
  | .responder => true
  | .both => true

def Transport.jsonName : Transport → String
  | .tcp => "Tcp"
  | .udp => "Udp"
  | .icmp => "Icmp"
  | .undefined => "Undef"

def HostTransport.jsonName : HostTransport → String
  | .tcp => "Tcp"
  | .udp => "Udp"
  | .icmp => "Icmp"

def Side.jsonName : Side → String
  | .originator => "Originator"
  | .responder => "Responder"
  | .both => "Both"

instance : Coded Transport where
  decode := Json.unitVariant?
    [("Tcp", .tcp), ("Udp", .udp), ("Icmp", .icmp), ("Undef", .undefined)]
  encode t := .string t.jsonName

instance : Coded HostTransport where
  decode := Json.unitVariant? [("Tcp", .tcp), ("Udp", .udp), ("Icmp", .icmp)]
  encode t := .string t.jsonName

instance : Coded Side where
  decode := Json.unitVariant?
    [("Originator", .originator), ("Responder", .responder), ("Both", .both)]
  encode s := .string s.jsonName

instance : Coded Port where
  decode json := do
    let fields ← json.fields? ["number", "protocol"]
    return ⟨← fields.required "number", ← fields.required "protocol"⟩
  encode p := .record [("number", Coded.encode p.number), ("protocol", Coded.encode p.transport)]

end TrafficAnalyzers
