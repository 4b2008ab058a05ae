import TrafficAnalyzers.IoError
import TrafficAnalyzers.Path
import TrafficAnalyzers.Tag
/-! What can go wrong while modules load and their analyzers are registered and resolved. -/
namespace TrafficAnalyzers

/-- What is closed once parsers are resolved. -/
inductive Operation where
  | loadModule
  | finishRegistration
  | registerProtocolAnalyzer
  | registerFileAnalyzer
  | registerPacketAnalyzer
  | registerParser
  | registerEvent
  | registerEnumType
  deriving DecidableEq, Repr

def Operation.text : Operation → String
  | .loadModule => "loading a module"
  | .finishRegistration => "post-script initialization"
  | .registerProtocolAnalyzer => "registering a protocol analyzer"
  | .registerFileAnalyzer => "registering a file analyzer"
  | .registerPacketAnalyzer => "registering a packet analyzer"
  | .registerParser => "registering a parser"
  | .registerEvent => "registering an event"
  | .registerEnumType => "registering an enum type"

/-- Why a file could not be opened as a module, with the loader's own words. -/
inductive OpenError where
  | notLoadable (words : String)
  | noEntryPoint (words : String)
  deriving DecidableEq, Repr

def OpenError.message : OpenError → String
  | .notLoadable words => words
  | .noEntryPoint words => s!"missing module entry point: {words}"

/-- The parser runtime's refusal to start. -/
structure RuntimeFailure where
  kind : String
  message : String
  deriving DecidableEq, Repr

inductive Fault where
  | versionMismatch (running compiled : UInt32)
  | ownPathUnknown (cause : IoError)
  | unresolvedPath (path : Path) (cause : IoError)
  | moduleNotOpened (path : Path) (cause : OpenError)
  | unknownParser (parser analyzer : String)
  /-- A source file would have to be compiled first. -/
  | needsCompiler (path : Path)
  | missingTag (analyzer : String)
  | unsupportedTransport (port : String)
  | componentNotFound (kind : Kind) (name : String)
  | runtimeNotStarted (failure : RuntimeFailure)
  | registrationClosed (operation : Operation)
  | unsupportedProtocol (analyzer protocol : String)
  | settingsUnreadable (path : Path) (cause : IoError)
  | settingsMalformed (path : Path) (words : String)
  deriving DecidableEq, Repr

namespace Fault

def message : Fault → String
  | versionMismatch running compiled =>
    s!"host version mismatch: running with {running}, but plugin compiled for {compiled}"
  | ownPathUnknown cause => s!"plugin cannot determine its file system path: {cause.message}"
  | unresolvedPath path cause => s!"cannot resolve module path {path.text}: {cause.message}"
  | moduleNotOpened path cause => s!"could not open library path {path.text}: {cause.message}"
  | unknownParser parser analyzer =>
    s!"unknown parser '{parser}' requested by analyzer '{analyzer}'"
  | needsCompiler path => s!"cannot load '{path.text}', plugin was not compiled with JIT support"
  | missingTag analyzer => s!"cannot get analyzer tag for '{analyzer}'"
  | unsupportedTransport port =>
    s!"unsupported transport protocol in port '{port}' for host conversion"
  | componentNotFound kind name => s!"failed to lookup {kind.name} analyzer component '{name}'"
  | runtimeNotStarted failure =>
    s!"uncaught runtime exception {failure.kind} during initialization: {failure.message}"
  | registrationClosed operation =>
    s!"{operation.text} is not allowed after post-script initialization"
  | unsupportedProtocol analyzer protocol =>
    s!"unsupported protocol {protocol} in analyzer '{analyzer}'"
  | settingsUnreadable path cause => s!"failed to read configuration {path.text}: {cause.message}"
  | settingsMalformed path words => s!"invalid configuration {path.text}: {words}"

/-- Whether the process has to end; an analyzer over an unsupported protocol is only left out. -/
def isFatal : Fault → Bool
  | unsupportedProtocol .. => false
  | _ => true

/-- The text of the fault underneath, if there is one. -/
def causeText? : Fault → Option String
  | ownPathUnknown cause => some cause.message
  | unresolvedPath _ cause => some cause.message
  | settingsUnreadable _ cause => some cause.message
  | settingsMalformed _ words => some words
  | _ => none

end Fault

end TrafficAnalyzers
