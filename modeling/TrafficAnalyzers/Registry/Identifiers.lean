import TrafficAnalyzers.Registry
/-!
Script identifiers made for modules: events, which stay without a type until a script handles them,
and enum types.
-/
namespace TrafficAnalyzers.Registry

variable {H : Type} [Host H]

/-- What stands before the first `::`, if that occurs. -/
def namespace? : List Char → Option (List Char)
  | ':' :: ':' :: _ => some []
  | c :: cs => (namespace? cs).map (c :: ·)
  | [] => none

/-- The module of an event: its first namespace, or the global module. -/
def eventModule (name : String) : String :=
  ((namespace? name.toList).map String.ofList).getD globalModule

/-- Makes the event's identifier, or exports the one that exists. -/
def eventIdent (name : String) : Op (Registry H) Nat := do
  match ← askHost (Host.lookupIdent name (eventModule name)) with
  | some ident => do
    changeHost (Host.exportIdent ident)
    pure ident
  | none => askHost (Host.installIdent name (eventModule name) true)

def registerEvent (name : String) : Op (Registry H) Unit := do
  changeHost (Host.addEventHandler name)
  let ident ← eventIdent name
  .update fun r => { r with events := r.events.insert name ident }

/-- Gives an event's identifier a placeholder type, unless it has a type. -/
def assignPlaceholder (name : String) (ident : Nat) : Op (Registry H) Unit := do
  if ← query (Host.identHasType · ident) then
    pure ()
  else do
    .debug s!"Event {name} has no handler, using dummy type"
    changeHost (Host.setIdentType ident .placeholder)

def assignPlaceholders : Op (Registry H) Unit := do
  let events ← .read (·.events.entries)
  events.forM fun event => assignPlaceholder event.1 event.2

/-- The labels of an enum type carry its name in front. -/
def enumLabels (id : String) (labels : List (String × Int64)) : List (String × Int64) :=
  labels.map fun label => (id ++ "_" ++ label.1, label.2)

/-- Installs an enum type, unless an identifier of its name exists. -/
def registerEnumType (space id : String) (labels : List (String × Int64)) :
    Op (Registry H) Unit := do
  match ← askHost (Host.lookupIdent id space) with
  | some _ => pure ()
  | none => do
    let name := space ++ "::" ++ id
    .debug s!"Adding enum type {name}"
    let ident ← askHost (Host.installIdent id space true)
    changeHost (Host.setIdentType ident (.enum name (enumLabels id labels)))

end TrafficAnalyzers.Registry
