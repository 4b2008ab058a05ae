import TrafficAnalyzers.Analyzer
import TrafficAnalyzers.Ansi
import TrafficAnalyzers.CommandLine
import TrafficAnalyzers.CommandLine.Reader
import TrafficAnalyzers.CommandLine.Run
import TrafficAnalyzers.Discovery
import TrafficAnalyzers.Environment
import TrafficAnalyzers.Fault
import TrafficAnalyzers.FileSystem
import TrafficAnalyzers.Host
import TrafficAnalyzers.Host.Local
import TrafficAnalyzers.Host.Scripted
import TrafficAnalyzers.IoError
import TrafficAnalyzers.Json
import TrafficAnalyzers.Json.Coded
import TrafficAnalyzers.Json.Printer
import TrafficAnalyzers.Json.Reader
import TrafficAnalyzers.Op
import TrafficAnalyzers.Parser
import TrafficAnalyzers.ParserRuntime
import TrafficAnalyzers.Path
import TrafficAnalyzers.Plugin
import TrafficAnalyzers.Port
import TrafficAnalyzers.Registry
import TrafficAnalyzers.Registry.Identifiers
import TrafficAnalyzers.Registry.Registration
import TrafficAnalyzers.Registry.Resolution
import TrafficAnalyzers.Registry.Toggle
import TrafficAnalyzers.Report
import TrafficAnalyzers.Report.Human
import TrafficAnalyzers.Script
import TrafficAnalyzers.SearchPath
import TrafficAnalyzers.Settings
import TrafficAnalyzers.SlotTable
import TrafficAnalyzers.SortedMap
import TrafficAnalyzers.Tag
import TrafficAnalyzers.Text.Blank
import TrafficAnalyzers.Text.Fields
import TrafficAnalyzers.Text.Utf8
import TrafficAnalyzers.Timestamp
import TrafficAnalyzers.Trace
import TrafficAnalyzers.Environment.Image
import TrafficAnalyzers.Main
import TrafficAnalyzers.Proofs.Operations
import TrafficAnalyzers.Proofs.Slots
import TrafficAnalyzers.Proofs.Slots.Log
import TrafficAnalyzers.Proofs.Resolution.Schedule
import TrafficAnalyzers.Proofs.Resolution.Bindings
import TrafficAnalyzers.Proofs.Roster
import TrafficAnalyzers.Proofs.Resolution.Records
import TrafficAnalyzers.Proofs.Roster.Registration
import TrafficAnalyzers.Proofs.Roster.Resolution
import TrafficAnalyzers.Proofs.Roster.Toggle
import TrafficAnalyzers.Proofs.Session
import TrafficAnalyzers.Proofs.Roster.Invariant
import TrafficAnalyzers.Proofs.Coupling
import TrafficAnalyzers.Proofs.Resolution.Finish
import TrafficAnalyzers.Proofs.Resolution.Failure
import TrafficAnalyzers.Proofs.Resolution.Attribution
import TrafficAnalyzers.Proofs.Roster.Writes
import TrafficAnalyzers.Proofs.Replacement
import TrafficAnalyzers.Proofs.Growth
import TrafficAnalyzers.Proofs.Moves
import TrafficAnalyzers.Proofs.Modules.Loading
import TrafficAnalyzers.Proofs.Turns
import TrafficAnalyzers.Proofs.Modules.Once
import TrafficAnalyzers.Proofs.Resolution.Outcome
import TrafficAnalyzers.Proofs.Resolution.Parsers
import TrafficAnalyzers.Proofs.Retention
import TrafficAnalyzers.Proofs.Modules.Completion
import TrafficAnalyzers.Proofs.Lifecycle.Calls
import TrafficAnalyzers.Proofs.Lifecycle.Phases
import TrafficAnalyzers.Proofs.Lifecycle.Protocol
import TrafficAnalyzers.Proofs.Toggles
import TrafficAnalyzers.Proofs.Interchange.References
import TrafficAnalyzers.Proofs.Interchange.Portrait
import TrafficAnalyzers.Proofs.Interchange.Registration
import TrafficAnalyzers.Proofs.Interchange.Resolution
import TrafficAnalyzers.Proofs.Interchange
import TrafficAnalyzers.Proofs.Assignment
import TrafficAnalyzers.Proofs.Ascending
import TrafficAnalyzers.Proofs.Events
import TrafficAnalyzers.Proofs.Modules.Direct
import TrafficAnalyzers.Proofs.Discovery
import TrafficAnalyzers.Proofs.Modules.Listing
import TrafficAnalyzers.Proofs.Inspection
import TrafficAnalyzers.Proofs.Toggles.Stock
import TrafficAnalyzers.Proofs.Toggles.Answers
import TrafficAnalyzers.Proofs.Refusal
import TrafficAnalyzers.Proofs.Paths.Children
import TrafficAnalyzers.Proofs.FileSystem.Trees
import TrafficAnalyzers.Proofs.FileSystem.Walks
import TrafficAnalyzers.Proofs.Discovery.Trees
import TrafficAnalyzers.Proofs.Text.Utf8
import TrafficAnalyzers.Proofs.SearchPath
import TrafficAnalyzers.Proofs.EnumTypes
import TrafficAnalyzers.Proofs.Discovery.Configured
import TrafficAnalyzers.Proofs.LibraryPaths
import TrafficAnalyzers.Proofs.Precedence
import TrafficAnalyzers.Proofs.Rows
import TrafficAnalyzers.Proofs.Toggles.Spared
import TrafficAnalyzers.Proofs.Identifiers
import TrafficAnalyzers.Proofs.Paths.Texts
import TrafficAnalyzers.Proofs.Delivery
import TrafficAnalyzers.Proofs.SearchPath.Joining
import TrafficAnalyzers.Proofs.Numbering
import TrafficAnalyzers.Proofs.Allocation
