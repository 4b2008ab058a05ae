import TrafficAnalyzers.Fault
import TrafficAnalyzers.Parser
/-! The parser runtime: it collects parsers, and starts once all of them are in. -/
namespace TrafficAnalyzers

structure RuntimeOptions where
  enablePrint : Bool
  abortOnExceptions : Bool
  showBacktraces : Bool
  deriving DecidableEq, Repr

structure ParserRuntime where
  parsers : List Parser
  /-- Set while the runtime is started. -/
  options : Option RuntimeOptions
  /-- The failures of the next attempts to start; attempts after them succeed. -/
  failures : List RuntimeFailure
  deriving DecidableEq, Repr

namespace ParserRuntime

def new (failures : List RuntimeFailure) : ParserRuntime := ⟨[], none, failures⟩

def register (parser : Parser) (r : ParserRuntime) : ParserRuntime :=
  { r with parsers := r.parsers ++ [parser] }

/-- A failing attempt to start changes nothing else. -/
def start (options : RuntimeOptions) (r : ParserRuntime) :
    Except RuntimeFailure Unit × ParserRuntime :=
  match r.failures with
  | [] => (.ok (), { r with options := some options })
  | failure :: failures => (.error failure, { r with failures })

def stop (r : ParserRuntime) : ParserRuntime := { r with options := none }

end ParserRuntime

instance : Coded RuntimeOptions where
  decode json := do
    let fields ← json.fields? ["enable_print", "abort_on_exceptions", "show_backtraces"]
    return ⟨← fields.required "enable_print", ← fields.required "abort_on_exceptions",
      ← fields.required "show_backtraces"⟩
  encode o := .record
    [("enable_print", Coded.encode o.enablePrint),
     ("abort_on_exceptions", Coded.encode o.abortOnExceptions),
     ("show_backtraces", Coded.encode o.showBacktraces)]

end TrafficAnalyzers
