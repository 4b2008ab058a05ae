import TrafficAnalyzers.CommandLine
/-!
Reading a command line. Options may stand before and after the subcommand, each at most once on
either side, and the one after it wins. A value given in an argument of its own is looked at only
when the next option, flag or module comes; so a fault further on can show first.
-/
namespace TrafficAnalyzers.CommandLine

/-- The commands whose options are read: the program itself, and its subcommands. -/
inductive Level where
  | program | discover | inspect
  deriving DecidableEq, Repr

inductive Flag where
  | noColor | verbose | noDiscover
  deriving DecidableEq, Repr

/-- The options that take a value. -/
inductive Setting where
  | config | format | outputFile | modulePath | hostVersion
  deriving DecidableEq, Repr

inductive Switch where
  | flag (flag : Flag)
  | setting (setting : Setting)
  | help
  | version
  deriving DecidableEq, Repr

def Level.long? (level : Level) (name : String) : Option Switch :=
  if name = "config" then some (.setting .config)
  else if name = "output-format" then some (.setting .format)
  else if name = "output-file" then some (.setting .outputFile)
  else if name = "no-color" then some (.flag .noColor)
  else if name = "verbose" then some (.flag .verbose)
  else if name = "help" then some .help
  else if name = "version" ∧ level = .program then some .version
  else if name = "module-path" ∧ level = .discover then some (.setting .modulePath)
  else if name = "no-discover" ∧ level = .inspect then some (.flag .noDiscover)
  else if name = "host-version" ∧ level = .inspect then some (.setting .hostVersion)
  else none

def Level.short? (level : Level) (c : Char) : Option Switch :=
  if c = 'c' then some (.setting .config)
  else if c = 'o' then some (.setting .format)
  else if c = 'f' then some (.setting .outputFile)
  else if c = 'v' then some (.flag .verbose)
  else if c = 'h' then some .help
  else if c = 'V' ∧ level = .program then some .version
  else none

/-- The subcommands that the program has, besides help. -/
def subcommand? (name : String) : Option Level :=
  if name = "discover" then some .discover
  else if name = "inspect" then some .inspect
  else none

/-- What was given on one side of the subcommand. -/
structure Given where
  config : Option Path
  format : Option Format
  outputFile : Option Path
  modulePath : Option String
  hostVersion : Option UInt32
  noColor : Bool
  verbose : Bool
  noDiscover : Bool
  modules : List Path
  deriving DecidableEq, Repr

def Given.none : Given := ⟨.none, .none, .none, .none, .none, false, false, false, []⟩

def path? (value : String) : Except UsageError Path :=
  if value.isEmpty then .error .invalidValue else .ok (.ofString value)

def format? (value : String) : Except UsageError Format :=
  if value = "human" then .ok .human
  else if value = "json" then .ok .json
  else .error .invalidValue

/-- An optional sign and decimal digits. -/
def int? (cs : List Char) : Option Int :=
  let nat? (ds : List Char) : Option Nat :=
    if ds.isEmpty || ds.any (!·.isDigit) then none
    else some (ds.foldl (fun n d => n * 10 + (d.toNat - '0'.toNat)) 0)
  match cs with
  | '-' :: ds => (nat? ds).map fun n => -(n : Int)
  | '+' :: ds => (nat? ds).map Int.ofNat
  | ds => (nat? ds).map Int.ofNat

def version? (value : String) : Except UsageError UInt32 :=
  match int? value.toList with
  | some n => if 0 ≤ n ∧ n < UInt32.size then .ok (.ofNat n.toNat) else .error .valueValidation
  | none => .error .valueValidation

/-- Stores a value that must not have been given before. -/
def once {α : Type} (old : Option α) (read : Except UsageError α) : Except UsageError (Option α) :=
  match old with
  | some _ => .error .argumentConflict
  | none => read.map some

def Given.set (g : Given) (setting : Setting) (value : String) : Except UsageError Given :=
  match setting with
  | .config => (once g.config (path? value)).map fun config => { g with config }
  | .format => (once g.format (format? value)).map fun format => { g with format }
  | .outputFile => (once g.outputFile (path? value)).map fun outputFile => { g with outputFile }
  | .modulePath => (once g.modulePath (.ok value)).map fun modulePath => { g with modulePath }
  | .hostVersion => (once g.hostVersion (version? value)).map fun hostVersion => { g with hostVersion }

def Given.raise (g : Given) (flag : Flag) : Except UsageError Given :=
  match flag with
  | .noColor => if g.noColor then .error .argumentConflict else .ok { g with noColor := true }
  | .verbose => if g.verbose then .error .argumentConflict else .ok { g with verbose := true }
  | .noDiscover =>
    if g.noDiscover then .error .argumentConflict else .ok { g with noDiscover := true }

/-- What was read but not looked at yet. -/
inductive Pending where
  | nothing
  /-- An option that still waits for its value. -/
  | awaiting (setting : Setting)
  | value (setting : Setting) (value : String)
  | modules (paths : List String)
  deriving DecidableEq, Repr

structure Progress where
  given : Given
  pending : Pending
  /-- After `--` every argument is a module. -/
  onlyModules : Bool
  deriving DecidableEq, Repr

def Progress.start : Progress := ⟨.none, .nothing, false⟩

namespace Progress

/-- Looks at what is pending. -/
def settled (p : Progress) : Except UsageError Given :=
  match p.pending with
  | .nothing => .ok p.given
  | .awaiting _ => .error .invalidValue
  | .value setting value => p.given.set setting value
  | .modules paths => do
    let modules ← paths.mapM path?
    return { p.given with modules := p.given.modules ++ modules }

def settle (p : Progress) : Except UsageError Progress :=
  p.settled.map fun given => { p with given, pending := .nothing }

def flag (p : Progress) (flag : Flag) : Except UsageError Progress := do
  let p ← p.settle
  return { p with given := ← p.given.raise flag }

/-- An option with its value in the same argument. -/
def attached (p : Progress) (setting : Setting) (value : String) : Except UsageError Progress := do
  let p ← p.settle
  return { p with given := ← p.given.set setting value }

def await (p : Progress) (setting : Setting) : Except UsageError Progress := do
  let p ← p.settle
  return { p with pending := .awaiting setting }

def module (p : Progress) (path : String) : Except UsageError Progress :=
  match p.pending with
  | .modules paths => .ok { p with pending := .modules (paths ++ [path]) }
  | _ => do
    let p ← p.settle
    return { p with pending := .modules [path] }

/-- Help and version show instead of what follows, but not instead of a fault before them. -/
def stop (p : Progress) (shown : UsageError) : Except UsageError Progress := do
  let _ ← p.settle
  .error shown

/-- An argument `--name` or `--name=value`. -/
def long (p : Progress) (level : Level) (body : List Char) : Except UsageError Progress :=
  let name := body.takeWhile (· ≠ '=')
  let value? := if name.length < body.length then some (body.drop (name.length + 1)) else none
  match level.long? (String.ofList name), value? with
  | none, _ => .error .unknownArgument
  | some (.setting setting), some value => p.attached setting (String.ofList value)
  | some (.setting setting), none => p.await setting
  | some _, some _ => .error .tooManyValues
  | some (.flag f), none => p.flag f
  | some .help, none => p.stop .displayHelp
  | some .version, none => p.stop .displayVersion

/-- Letters after one dash: flags, up to an option whose value is the rest. -/
def short (level : Level) : List Char → Progress → Except UsageError Progress
  | [], p => .ok p
  | c :: rest, p =>
    match level.short? c with
    | none => .error .unknownArgument
    | some (.flag f) => do short level rest (← p.flag f)
    | some (.setting setting) =>
      match rest with
      | [] => p.await setting
      | '=' :: value => p.attached setting (String.ofList value)
      | value => p.attached setting (String.ofList value)
    | some .help => p.stop .displayHelp
    | some .version => p.stop .displayVersion

/-- An argument that is neither an option nor its value. -/
def plain (p : Progress) (level : Level) (arg : String) : Except UsageError Progress :=
  match level with
  | .inspect => p.module arg
  | .discover => .error .unknownArgument
  | .program =>
    if p.onlyModules ∧ ((subcommand? arg).isSome ∨ arg = "help") then .error .unknownArgument
    else .error .invalidSubcommand

/-- One argument, at a place where no subcommand is. -/
def step (p : Progress) (level : Level) (arg : String) : Except UsageError Progress :=
  if p.onlyModules then p.plain level arg
  else match arg.toList with
    | ['-', '-'] => .ok { p with onlyModules := true }
    | '-' :: '-' :: body => p.long level body
    | '-' :: c :: rest => short level (c :: rest) p
    | _ =>
      match p.pending with
      | .awaiting setting => .ok { p with pending := .value setting arg }
      | _ => p.plain level arg

/-- Whether the next argument may name a subcommand. -/
def takesSubcommand (p : Progress) : Bool :=
  match p.pending with
  | .awaiting _ => false
  | _ => !p.onlyModules

end Progress

/-- What follows a subcommand. -/
def readSubcommand (level : Level) (args : List String) : Except UsageError Given := do
  let p ← args.foldlM (fun p arg => p.step level arg) Progress.start
  p.settled

/-- Help on what is named; subcommands have none of their own. -/
def helpOn : List String → UsageError
  | [] => .displayHelp
  | [name] => if (subcommand? name).isSome ∨ name = "help" then .displayHelp else .invalidSubcommand
  | _ => .invalidSubcommand

/-- Puts together what was given before and after the subcommand. -/
def ofGiven (level : Level) (before after : Given) : CommandLine where
  command :=
    match level with
    | .inspect => .inspect after.modules after.noDiscover after.hostVersion
    | _ => .discover after.modulePath
  config := after.config <|> before.config
  format := (after.format <|> before.format).getD .human
  outputFile := after.outputFile <|> before.outputFile
  noColor := after.noColor || before.noColor
  verbose := after.verbose || before.verbose

/-- The arguments from where they may still name the subcommand. What was read before it is looked
at last. -/
def readFrom (p : Progress) : List String → Except UsageError CommandLine
  | [] => do
    let given ← p.settled
    if given = Given.none then .error .nothingGiven else .error .missingSubcommand
  | arg :: args =>
    if p.takesSubcommand then
      match subcommand? arg with
      | some level => do
        let after ← readSubcommand level args
        let before ← p.settled
        return ofGiven level before after
      | none =>
        if arg = "help" then .error (helpOn args)
        else do readFrom (← p.step .program arg) args
    else do readFrom (← p.step .program arg) args

def read (args : List String) : Except UsageError CommandLine := readFrom .start args

end TrafficAnalyzers.CommandLine
