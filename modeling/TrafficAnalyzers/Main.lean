import TrafficAnalyzers.CommandLine.Reader
import TrafficAnalyzers.CommandLine.Run
import TrafficAnalyzers.Environment.Image
/-!
The command line. It runs over surroundings that are described on standard input, prints the report,
and shows faults and the log on standard error.
-/
namespace TrafficAnalyzers.Main

def usage : String :=
  "Usage: traffic-analyzers [OPTIONS] discover [--module-path DIRS]\n" ++
  "       traffic-analyzers [OPTIONS] inspect [--no-discover] [--host-version N] [MODULE]...\n" ++
  "Options: -c FILE, -o human|json, -f FILE, --no-color, -v, -h, -V\n" ++
  "Standard input describes the files as JSON.\n"

def variableNames : List String :=
  ["HOME", "XDG_DATA_HOME", Settings.modulePathVariable, Settings.libraryPathVariable,
   Settings.hostPluginPathVariable]

def readVariables : IO (List (String × String)) :=
  variableNames.filterMapM fun name => do
    return (← IO.getEnv name).map (name, ·)

/-- The log without debug messages, unless they are asked for. -/
def shownLog (verbose : Bool) (traces : List Trace) : List String :=
  Trace.logLines (traces.filter fun
    | .log .debug _ => verbose
    | _ => true)

def showUsage (e : UsageError) : IO UInt32 := do
  match e with
  | .displayHelp => IO.print usage; return 0
  | .displayVersion => IO.println "traffic-analyzers 0.1.0"; return 0
  | _ => IO.eprint usage; return 2

def execute (env : Environment) (line : CommandLine) : IO UInt32 := do
  let e := line.run env true
  for text in shownLog line.verbose e.trace do
    IO.eprintln text
  match e.result with
  | .error failure =>
    if failure.isFatal then
      IO.eprintln s!"fatal error: {failure.message}"
      return 1
    IO.eprintln s!"{Level.warn.name} {failure.message}"
    return 0
  | .ok () =>
    IO.print e.printed
    match line.outputFile with
    | none => return 0
    | some p =>
      match e.files.readText p with
      | .ok text => IO.FS.writeFile p.text text
      | .error _ => pure ()
      return 0

end TrafficAnalyzers.Main

open TrafficAnalyzers in
def main (args : List String) : IO UInt32 := do
  match CommandLine.read args with
  | .error e => Main.showUsage e
  | .ok line =>
    let image ← (← IO.getStdin).readToEnd
    let json := Json.parse? (if image.isEmpty then "\x7b\x7d" else image)
    match json.bind (Environment.ofImage? (← Main.readVariables)) with
    | none =>
      IO.eprintln "fatal error: standard input holds no description of files"
      return 1
    | some env => Main.execute env line
