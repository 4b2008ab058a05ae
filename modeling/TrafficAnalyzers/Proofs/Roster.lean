import Mathlib.Logic.Function.Basic
import Mathlib.Logic.Relation
import TrafficAnalyzers.Host.Local
import TrafficAnalyzers.Registry.Registration
import TrafficAnalyzers.Proofs.Slots
/-!
The roster of a registry over a host in memory: the host's components, and the analyzers that are
recorded for them. It changes in two ways, by enrolling an analyzer and by switching a component on
or off.
-/
namespace TrafficAnalyzers

/-- What the records of the three kinds of analyzers have in common. -/
structure Descriptor where
  id : UInt32
  name : String
  /-- The host's entry for the declared transport. -/
  entry : Option Entry
  location : String
  replaces : Option UInt32
  /-- The name of the replaced analyzer; empty for none. -/
  replacedName : String
  deriving DecidableEq, Repr

def ProtocolAnalyzer.descriptor (p : ProtocolAnalyzer) : Descriptor :=
  ⟨p.id, p.decl.name, Registry.entryFor? p.decl.transport, p.location, p.replaces, p.decl.replaces⟩

def FileAnalyzer.descriptor (p : FileAnalyzer) : Descriptor :=
  ⟨p.id, p.decl.name, some .file, p.location, p.replaces, p.decl.replaces⟩

def PacketAnalyzer.descriptor (p : PacketAnalyzer) : Descriptor :=
  ⟨p.id, p.decl.name, some .packet, p.location, none, ""⟩

namespace Analyzers

/-- What is recorded in the slot of a tag, if that is set. -/
def descriptor? (a : Analyzers) (tag : Tag) : Option Descriptor :=
  match tag.kind with
  | .protocol => (a.protocol.get? tag.id).map (·.descriptor)
  | .file => (a.file.get? tag.id).map (·.descriptor)
  | .packet => (a.packet.get? tag.id).map (·.descriptor)

/-- In all three tables the records stand at their own numbers. -/
structure Placed (a : Analyzers) : Prop where
  protocol : a.protocol.Placed
  file : a.file.Placed
  packet : a.packet.Placed

theorem placed_empty : empty.Placed :=
  ⟨SlotTable.placed_empty, SlotTable.placed_empty, SlotTable.placed_empty⟩

theorem descriptor?_empty : empty.descriptor? = fun _ => none := by
  funext ⟨kind, id⟩
  cases kind <;> simp [descriptor?, empty]

variable {a : Analyzers}

theorem Placed.insertProtocol (ha : a.Placed) (p : ProtocolAnalyzer) :
    { a with protocol := a.protocol.insert p }.Placed :=
  ⟨ha.protocol.insert p, ha.file, ha.packet⟩

theorem Placed.insertFile (ha : a.Placed) (p : FileAnalyzer) :
    { a with file := a.file.insert p }.Placed :=
  ⟨ha.protocol, ha.file.insert p, ha.packet⟩

theorem Placed.insertPacket (ha : a.Placed) (p : PacketAnalyzer) :
    { a with packet := a.packet.insert p }.Placed :=
  ⟨ha.protocol, ha.file, ha.packet.insert p⟩

theorem descriptor?_insertProtocol {p : ProtocolAnalyzer} (h0 : p.id ≠ 0) :
    { a with protocol := a.protocol.insert p }.descriptor? =
      Function.update a.descriptor? ⟨.protocol, p.id⟩ (some p.descriptor) := by
  funext ⟨kind, id⟩
  cases kind <;> simp [descriptor?, Function.update_apply, SlotTable.get?_insert, Slotted.id]
  split
  next h => simp [h, h0]
  next => rfl

theorem descriptor?_insertFile {p : FileAnalyzer} (h0 : p.id ≠ 0) :
    { a with file := a.file.insert p }.descriptor? =
      Function.update a.descriptor? ⟨.file, p.id⟩ (some p.descriptor) := by
  funext ⟨kind, id⟩
  cases kind <;> simp [descriptor?, Function.update_apply, SlotTable.get?_insert, Slotted.id]
  split
  next h => simp [h, h0]
  next => rfl

theorem descriptor?_insertPacket {p : PacketAnalyzer} (h0 : p.id ≠ 0) :
    { a with packet := a.packet.insert p }.descriptor? =
      Function.update a.descriptor? ⟨.packet, p.id⟩ (some p.descriptor) := by
  funext ⟨kind, id⟩
  cases kind <;> simp [descriptor?, Function.update_apply, SlotTable.get?_insert, Slotted.id]
  split
  next h => simp [h, h0]
  next => rfl

end Analyzers

/-- The next free number of each kind. -/
def LocalHost.next (h : LocalHost) : Kind → UInt32
  | .protocol => h.nextProtocol
  | .file => h.nextFile
  | .packet => h.nextPacket

namespace LocalHost

variable (kind : Kind) (h : LocalHost)

theorem allocate_tag : (h.allocate kind).1 = ⟨kind, h.next kind⟩ := by
  cases kind <;> rfl

theorem components_allocate : (h.allocate kind).2.components = h.components := by
  cases kind <;> rfl

theorem next_allocate :
    (h.allocate kind).2.next = Function.update h.next kind (h.next kind + 1) := by
  funext k
  cases kind <;> cases k <;> rfl

end LocalHost

structure Roster where
  fileToggle : Bool
  components : List ComponentRecord
  next : Kind → UInt32
  locations : List String
  descriptor? : Tag → Option Descriptor

def LocalHost.roster (h : LocalHost) (descriptor? : Tag → Option Descriptor) : Roster :=
  ⟨h.fileToggle, h.components, h.next, h.scriptLocations, descriptor?⟩

def Registry.roster (r : Registry LocalHost) : Roster := r.host.roster r.analyzers.descriptor?

namespace Roster

/-- The number of the oldest component of a kind and name. -/
def id? (o : Roster) (kind : Kind) (name : String) : Option UInt32 :=
  ((o.components.find? fun c => c.component.entry.kind = kind && c.component.name = name).bind
    (·.tag)).bind fun tag => if tag.kind = kind then some tag.id else none

/-- The number of the analyzer to be replaced, if one is named and the host has it. -/
def replaced? (o : Roster) (kind : Kind) (name : String) : Option UInt32 :=
  if name = "" then none else o.id? kind name

/-- Only a host that can disable file analyzers has them replaced. -/
def replacedFile? (o : Roster) (name : String) : Option UInt32 :=
  if o.fileToggle then o.replaced? .file name else none

def switch (tag : Tag) (enabled : Bool) (o : Roster) : Roster :=
  { o with components := LocalHost.enableIn tag enabled o.components }

/-- Switches a component off, if there is one to be replaced. -/
def supersede (kind : Kind) (replaces : Option UInt32) (o : Roster) : Roster :=
  match replaces with
  | some id => o.switch ⟨kind, id⟩ false
  | none => o

/-- Adds a component under the next number of its kind, and its record unless the number is zero. -/
def enrol (entry : Entry) (name : String) (replaces : Option UInt32) (replacedName : String)
    (o : Roster) : Roster where
  fileToggle := o.fileToggle
  components :=
    o.components ++ [⟨⟨name, entry⟩, some ⟨entry.kind, o.next entry.kind⟩, true, false⟩]
  next := Function.update o.next entry.kind (o.next entry.kind + 1)
  locations :=
    if o.locations.contains (scriptLocation name) then o.locations
    else o.locations ++ [scriptLocation name]
  descriptor? :=
    if o.next entry.kind = 0 then o.descriptor?
    else Function.update o.descriptor? ⟨entry.kind, o.next entry.kind⟩
      (some ⟨o.next entry.kind, name, some entry, scriptLocation name, replaces, replacedName⟩)

/-- A component is switched, or an analyzer enrolled that replaces what the host finds by a name. -/
inductive Step : Roster → Roster → Prop
  | switch (tag : Tag) (enabled : Bool) (o : Roster) : Step o (o.switch tag enabled)
  | enrol (entry : Entry) (name : String) (replaces : Option UInt32) (replacedName : String)
      (o : Roster) (h : ∀ id, replaces = some id → o.id? entry.kind replacedName = some id) :
      Step o (o.enrol entry name replaces replacedName)

/-- Any number of steps. -/
abbrev Leads : Roster → Roster → Prop := Relation.ReflTransGen Step

theorem fileToggle_leads {o o' : Roster} (h : o.Leads o') : o'.fileToggle = o.fileToggle := by
  induction h with
  | refl => rfl
  | tail _ hstep ih => cases hstep <;> exact ih

theorem map_enableIn {α : Type} (f : ComponentRecord → α)
    (hf : ∀ c enabled, f { c with enabled } = f c) (tag : Tag) (enabled : Bool)
    (cs : List ComponentRecord) : (LocalHost.enableIn tag enabled cs).map f = cs.map f := by
  induction cs with
  | nil => rfl
  | cons c cs ih =>
    simp only [LocalHost.enableIn]
    split
    · simp [hf]
    · simp [ih]

theorem id?_switch (tag : Tag) (enabled : Bool) (o : Roster) :
    (o.switch tag enabled).id? = o.id? := by
  funext kind name
  have hid (cs : List ComponentRecord) :
      ((cs.find? fun c => c.component.entry.kind = kind && c.component.name = name).bind (·.tag)) =
        (((cs.map fun c => (c.component, c.tag)).find? fun c =>
          c.1.entry.kind = kind && c.1.name = name).bind (·.2)) := by
    rw [List.find?_map, Function.comp_def]
    cases cs.find? fun c => c.component.entry.kind = kind && c.component.name = name <;> rfl
  simp only [id?, hid, switch]
  rw [map_enableIn _ fun _ _ => rfl]

theorem leads_switch (tag : Tag) (enabled : Bool) (o : Roster) : o.Leads (o.switch tag enabled) :=
  .single (.switch tag enabled o)

theorem leads_supersede (kind : Kind) (replaces : Option UInt32) (o : Roster) :
    o.Leads (o.supersede kind replaces) := by
  cases replaces with
  | none => exact .refl
  | some id => exact leads_switch ⟨kind, id⟩ false o

theorem id?_supersede (kind : Kind) (replaces : Option UInt32) (o : Roster) :
    (o.supersede kind replaces).id? = o.id? := by
  cases replaces with
  | none => rfl
  | some id => exact id?_switch ⟨kind, id⟩ false o

@[simp] theorem next_supersede (kind : Kind) (replaces : Option UInt32) (o : Roster) :
    (o.supersede kind replaces).next = o.next := by
  cases replaces <;> rfl

@[simp] theorem descriptor?_supersede (kind : Kind) (replaces : Option UInt32) (o : Roster) :
    (o.supersede kind replaces).descriptor? = o.descriptor? := by
  cases replaces <;> rfl

/-- What is replaced is switched off before the analyzer that replaces it is enrolled. -/
theorem leads_enrol (entry : Entry) (name : String) {replaces : Option UInt32}
    {replacedName : String} {o : Roster}
    (h : ∀ id, replaces = some id → o.id? entry.kind replacedName = some id) :
    o.Leads ((o.supersede entry.kind replaces).enrol entry name replaces replacedName) := by
  apply (leads_supersede entry.kind replaces o).tail
  apply Step.enrol
  rwa [id?_supersede]

theorem id?_of_replaced? {o : Roster} {kind : Kind} {name : String} {id : UInt32}
    (h : o.replaced? kind name = some id) : o.id? kind name = some id := by
  unfold replaced? at h
  split at h
  · contradiction
  · exact h

theorem id?_of_replacedFile? {o : Roster} {name : String} {id : UInt32}
    (h : o.replacedFile? name = some id) : o.id? .file name = some id := by
  unfold replacedFile? at h
  split at h
  · exact id?_of_replaced? h
  · contradiction

end Roster

end TrafficAnalyzers
