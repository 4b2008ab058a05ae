import TrafficAnalyzers.Port
/-! What a module says about a parser it brings: its name, its ports and its MIME types. -/
namespace TrafficAnalyzers

structure ParserPort where
  port : Port
  side : Side
  deriving DecidableEq, Repr

structure Parser where
  name : String
  ports : List ParserPort
  mimeTypes : List String
  deriving DecidableEq, Repr

namespace Parser

/-- The ports on which the parser serves the responder of a connection. -/
def responderPorts (p : Parser) : List Port :=
  (p.ports.filter (·.side.includesResponder)).map (·.port)

end Parser

instance : Coded ParserPort where
  decode json := do
    let fields ← json.fields? ["port", "direction"]
    return ⟨← fields.required "port", ← fields.required "direction"⟩
  encode p := .record [("port", Coded.encode p.port), ("direction", Coded.encode p.side)]

instance : Coded Parser where
  decode json := do
    let fields ← json.fields? ["name", "ports", "mime_types"]
    return ⟨← fields.required "name", ← fields.optional "ports" [], ← fields.optional "mime_types" []⟩
  encode p := .record
    [("name", Coded.encode p.name), ("ports", Coded.encode p.ports),
     ("mime_types", Coded.encode p.mimeTypes)]

end TrafficAnalyzers
