import TrafficAnalyzers.Fault
/-! What an operation leaves behind besides its result: log messages and calls to the outside. -/
namespace TrafficAnalyzers

inductive Level where
  | debug | info | warn | error
  deriving DecidableEq, Repr

def Level.name : Level → String
  | .debug => "DEBUG"
  | .info => "INFO"
  | .warn => "WARN"
  | .error => "ERROR"

/-- A call to the parser runtime. -/
inductive RuntimeCall where
  | registered (parser : String)
  | started
  | startFailed
  | stopped
  deriving DecidableEq, Repr

inductive Trace where
  | log (level : Level) (text : String)
  | runtime (call : RuntimeCall)
  /-- A module file was opened. -/
  | opened (location : Location)
  /-- An opened module begins to register itself. -/
  | registering (location : Location)
  /-- A module has registered all it brings. -/
  | registered (location : Location)
  deriving DecidableEq, Repr

namespace Trace

/-- A log message with its level; nothing for the other traces. -/
def logLine? : Trace → Option String
  | log level text => some s!"{level.name} {text}"
  | _ => none

def logLines (traces : List Trace) : List String := traces.filterMap logLine?

def runtimeCall? : Trace → Option RuntimeCall
  | runtime call => some call
  | _ => none

end Trace

end TrafficAnalyzers
