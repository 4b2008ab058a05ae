import TrafficAnalyzers.Registry
/-! Turning registered analyzers on and off, and the analyzers they replace the other way. -/
namespace TrafficAnalyzers.Registry

variable {H : Type} [Host H]

/-- The tag of a script value: of the first kind whose script type has the value's type name. -/
def tagOfValue? (h : H) (value : EnumValue) : Option Tag :=
  (Kind.all.find? fun kind => Host.tagTypeName h kind = value.typeName).bind
    (Host.tagOfValue? h · value)

def switchProtocol (id : UInt32) (enable : Bool) : Op (Registry H) Unit :=
  changeHost (Host.setProtocolEnabled id enable)

/-- The word for a toggle in messages. -/
def toggleWord (enable : Bool) : String := if enable then "Enabling" else "Disabling"

/-- The word for what a toggle does to the replaced analyzer. -/
def inverseWord (enable : Bool) (enabling : String) : String :=
  if enable then "Disabling" else enabling

/-- Answers `false` for analyzers that are not ours. -/
def toggleProtocol (id : UInt32) (enable : Bool) : Op (Registry H) Bool := do
  match ← .read (·.analyzers.protocol.get? id) with
  | none => pure false
  | some p => do
    .debug s!"{toggleWord enable} Spicy protocol analyzer {p.decl.name}"
    switchProtocol id enable
    match p.replaces with
    | none => pure true
    | some replaced => do
      let word := inverseWord enable "Re-enabling"
      .debug s!"{word} standard protocol analyzer {p.decl.replaces}"
      switchProtocol replaced (!enable)
      pure true

/-- Answers `false` for analyzers that are not ours and for hosts that cannot do it. -/
def toggleFile (id : UInt32) (enable : Bool) : Op (Registry H) Bool := do
  match ← .read (·.analyzers.file.get? id) with
  | none => pure false
  | some p => do
    if ← query Host.supportsFileToggle then do
      .debug s!"{toggleWord enable} Spicy file analyzer {p.decl.name}"
      if ← askHost (Host.setFileEnabled id enable) then
        match p.replaces with
        | none => pure true
        | some replaced => do
          let word := inverseWord enable "Enabling"
          .debug s!"{word} standard file analyzer {p.decl.replaces}"
          let _ ← askHost (Host.setFileEnabled replaced (!enable))
          pure true
      else .raise (.componentNotFound .file p.decl.name)
    else do
      .debug s!"supposed to toggle file analyzer {p.decl.name}, but that is not supported by host version"
      pure false

/-- No host can toggle packet analyzers. -/
def togglePacket (id : UInt32) : Op (Registry H) Bool := do
  match ← .read (·.analyzers.packet.get? id) with
  | none => pure false
  | some p => do
    .debug s!"supposed to toggle packet analyzer {p.decl.name}, but that is not supported by host"
    pure false

def toggle (tag : Tag) (enable : Bool) : Op (Registry H) Bool :=
  match tag.kind with
  | .protocol => toggleProtocol tag.id enable
  | .file => toggleFile tag.id enable
  | .packet => togglePacket tag.id

/-- Toggles by a script value; a value that is no tag of the host answers `false`. -/
def toggleValue (value : EnumValue) (enable : Bool) : Op (Registry H) Bool := do
  match ← query (tagOfValue? · value) with
  | some tag => toggle tag enable
  | none => pure false

end TrafficAnalyzers.Registry
