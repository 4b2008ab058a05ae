import TrafficAnalyzers.Report
/-! What can be asked for on the command line, and why a command line is not accepted. -/
namespace TrafficAnalyzers

inductive Command where
  /-- List the module files that would be loaded. -/
  | discover (modulePath : Option String)
  /-- Load modules into a host in memory and report what they register. -/
  | inspect (modules : List Path) (noDiscover : Bool) (hostVersion : Option UInt32)
  deriving DecidableEq, Repr

structure CommandLine where
  command : Command
  config : Option Path
  format : Format
  outputFile : Option Path
  noColor : Bool
  verbose : Bool
  deriving DecidableEq, Repr

/-- Why a command line is not run; help and version are shown instead of running, too. -/
inductive UsageError where
  | displayHelp
  | displayVersion
  /-- Nothing was given at all. -/
  | nothingGiven
  | missingSubcommand
  | invalidSubcommand
  | unknownArgument
  | invalidValue
  | valueValidation
  | tooManyValues
  | argumentConflict
  deriving DecidableEq, Repr

end TrafficAnalyzers
