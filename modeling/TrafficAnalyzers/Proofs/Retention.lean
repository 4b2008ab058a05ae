import TrafficAnalyzers.Proofs.Modules.Loading
import TrafficAnalyzers.Proofs.Resolution.Finish
import TrafficAnalyzers.Proofs.Roster.Invariant
/-!
What a registry over a host in memory never loses. Main statement: whatever a plugin does, parsers,
events and identifiers stay, and the records of analyzers change in nothing but their parsers, as
long as no kind runs out of numbers.
-/
namespace TrafficAnalyzers

/-- The identifier keeps its name, and its export and its type once it has them. -/
structure Ident.Within (i j : Ident) : Prop where
  name : j.name = i.name
  exported : i.exported = true → j.exported = true
  type : ∀ type, i.type = some type → j.type = some type

theorem Ident.within_refl (i : Ident) : i.Within i := ⟨rfl, id, fun _ => id⟩

/-- Identifiers keep their places in the list. -/
def IdentsWithin (is js : List Ident) : Prop :=
  ∀ (n : Nat) (i : Ident), is[n]? = some i → ∃ j, js[n]? = some j ∧ i.Within j

theorem identsWithin_refl (is : List Ident) : IdentsWithin is is :=
  fun _ i hi => ⟨i, hi, i.within_refl⟩

theorem IdentsWithin.trans {is js ks : List Ident} (h : IdentsWithin is js)
    (h' : IdentsWithin js ks) : IdentsWithin is ks := by
  intro n i hi
  obtain ⟨j, hj, hij⟩ := h n i hi
  obtain ⟨k, hk, hjk⟩ := h' n j hj
  exact ⟨k, hk, hjk.name.trans hij.name, fun hexported => hjk.exported (hij.exported hexported),
    fun type htype => hjk.type type (hij.type type htype)⟩

theorem identsWithin_append (is js : List Ident) : IdentsWithin is (is ++ js) := by
  intro n i hi
  obtain ⟨hn, -⟩ := List.getElem?_eq_some_iff.mp hi
  exact ⟨i, by rw [List.getElem?_append_left hn, hi], i.within_refl⟩

theorem identsWithin_modify {is : List Ident} {n : Nat} {f : Ident → Ident}
    (hf : ∀ i, is[n]? = some i → i.Within (f i)) : IdentsWithin is (is.modify n f) := by
  intro m i hi
  rw [List.getElem?_modify, hi]
  by_cases hnm : n = m
  · subst hnm
    exact ⟨f i, by simp, hf i hi⟩
  · exact ⟨i, by simp [hnm], i.within_refl⟩

theorem IdentsWithin.mem {is js : List Ident} (h : IdentsWithin is js) {i : Ident} (hi : i ∈ is) :
    ∃ j ∈ js, i.Within j := by
  obtain ⟨n, hn⟩ := List.mem_iff_getElem?.mp hi
  obtain ⟨j, hj, hij⟩ := h n i hn
  exact ⟨j, List.mem_of_getElem? hj, hij⟩

/-- The identifier that is found by a name has it. -/
theorem LocalHost.getElem?_of_identIndex? {h : LocalHost} {name : String} {n : Nat}
    (hn : h.identIndex? name = some n) : ∃ i, h.idents[n]? = some i ∧ i.name = name := by
  obtain ⟨hlt, hname, -⟩ := List.findIdx?_eq_some_iff_getElem.mp hn
  exact ⟨h.idents[n], List.getElem?_eq_getElem hlt, of_decide_eq_true hname⟩

namespace SlotTable

variable {δ : Type} {f : δ → δ} {t u v : SlotTable δ}

/-- Every record keeps its slot, and what `f` tells of it. -/
def Within (f : δ → δ) (t u : SlotTable δ) : Prop :=
  ∀ id d, t.get? id = some d → ∃ e, u.get? id = some e ∧ f e = f d

theorem within_refl (f : δ → δ) (t : SlotTable δ) : Within f t t := fun _ d hd => ⟨d, hd, rfl⟩

theorem Within.trans (h : Within f t u) (h' : Within f u v) : Within f t v := by
  intro id d hd
  obtain ⟨e, he, hde⟩ := h id d hd
  obtain ⟨g, hg, heg⟩ := h' id e he
  exact ⟨g, hg, heg.trans hde⟩

theorem within_of_map_eq (h : t.map f = u.map f) : Within f t u := by
  intro id d hd
  obtain ⟨e, he, hde⟩ := exists_get?_of_map_eq h hd
  exact ⟨e, he, hde.symm⟩

variable [Slotted δ] {d : δ}

/-- A record that comes into an unset slot takes no other's place. -/
theorem within_insert (hnew : t.get? (Slotted.id d) = none) : Within f t (t.insert d) := by
  intro id e he
  refine ⟨e, ?_, rfl⟩
  rw [get?_insert, if_neg, he]
  rintro rfl
  simp [hnew] at he

/-- A record that was put at a number is found there, unless that is zero. -/
theorem get?_insert_self (h0 : Slotted.id d ≠ 0) :
    (t.insert d).get? (Slotted.id d) = some d := by
  rw [get?_insert, if_pos rfl, if_neg h0]

end SlotTable

namespace Analyzers

/-- Every record keeps its slot, and all it tells but its parsers. -/
structure Within (a b : Analyzers) : Prop where
  protocol : a.protocol.Within ProtocolAnalyzer.unresolved b.protocol
  file : a.file.Within FileAnalyzer.unresolved b.file
  packet : a.packet.Within PacketAnalyzer.unresolved b.packet

variable {a b c : Analyzers}

theorem within_refl (a : Analyzers) : a.Within a :=
  ⟨SlotTable.within_refl _ _, SlotTable.within_refl _ _, SlotTable.within_refl _ _⟩

theorem Within.trans (h : a.Within b) (h' : b.Within c) : a.Within c :=
  ⟨h.protocol.trans h'.protocol, h.file.trans h'.file, h.packet.trans h'.packet⟩

theorem within_of_unresolved (h : a.unresolved = b.unresolved) : a.Within b :=
  ⟨SlotTable.within_of_map_eq (congrArg protocol h), SlotTable.within_of_map_eq (congrArg file h),
    SlotTable.within_of_map_eq (congrArg packet h)⟩

/-- The record of a protocol analyzer just registered comes to its number. -/
def putProtocol (decl : ProtocolDecl) (replaces : Option UInt32) (id : UInt32) (a : Analyzers) :
    Analyzers :=
  { a with
    protocol := a.protocol.insert ⟨id, decl, scriptLocation decl.name, replaces, none, none⟩ }

def putFile (decl : FileDecl) (replaces : Option UInt32) (id : UInt32) (a : Analyzers) :
    Analyzers :=
  { a with file := a.file.insert ⟨id, decl, scriptLocation decl.name, replaces, none⟩ }

def putPacket (decl : PacketDecl) (id : UInt32) (a : Analyzers) : Analyzers :=
  { a with packet := a.packet.insert ⟨id, decl, scriptLocation decl.name, none⟩ }

theorem get?_putProtocol (decl : ProtocolDecl) (replaces : Option UInt32) {id : UInt32}
    (h0 : id ≠ 0) : (a.putProtocol decl replaces id).protocol.get? id =
      some ⟨id, decl, scriptLocation decl.name, replaces, none, none⟩ := SlotTable.get?_insert_self h0

theorem get?_putFile (decl : FileDecl) (replaces : Option UInt32) {id : UInt32} (h0 : id ≠ 0) :
    (a.putFile decl replaces id).file.get? id =
      some ⟨id, decl, scriptLocation decl.name, replaces, none⟩ := SlotTable.get?_insert_self h0

theorem get?_putPacket (decl : PacketDecl) {id : UInt32} (h0 : id ≠ 0) :
    (a.putPacket decl id).packet.get? id = some ⟨id, decl, scriptLocation decl.name, none⟩ :=
  SlotTable.get?_insert_self h0

theorem within_putProtocol (decl : ProtocolDecl) (replaces : Option UInt32) {id : UInt32}
    (hnew : a.descriptor? ⟨.protocol, id⟩ = none) : a.Within (a.putProtocol decl replaces id) :=
  have hslot : a.protocol.get? id = none := Option.map_eq_none_iff.mp hnew
  { within_refl a with protocol := SlotTable.within_insert hslot }

theorem within_putFile (decl : FileDecl) (replaces : Option UInt32) {id : UInt32}
    (hnew : a.descriptor? ⟨.file, id⟩ = none) : a.Within (a.putFile decl replaces id) :=
  have hslot : a.file.get? id = none := Option.map_eq_none_iff.mp hnew
  { within_refl a with file := SlotTable.within_insert hslot }

theorem within_putPacket (decl : PacketDecl) {id : UInt32}
    (hnew : a.descriptor? ⟨.packet, id⟩ = none) : a.Within (a.putPacket decl id) :=
  have hslot : a.packet.get? id = none := Option.map_eq_none_iff.mp hnew
  { within_refl a with packet := SlotTable.within_insert hslot }

end Analyzers

namespace Registry

/-- Records stand in their places, and the roster is sound unless a kind ran out of numbers. -/
structure Ordered (r : Registry LocalHost) : Prop where
  placed : r.analyzers.Placed
  sound : r.host.Roomy → r.roster.Sound

section Ordered

variable {r r' : Registry LocalHost}

/-- Room for numbers at the end was room at the start. -/
theorem Ordered.roomy (hr : r.Ordered) (h : Leads r r') (hroom : r'.host.Roomy) :
    r.host.Roomy :=
  Roster.roomy_roster.mp ((Roster.roomy_roster.mpr hroom).of_leads (h hr.placed).2)

theorem Ordered.leads (hr : r.Ordered) (h : Leads r r') : r'.Ordered := by
  obtain ⟨hplaced, hleads⟩ := h hr.placed
  refine ⟨hplaced, fun hroom => ?_⟩
  exact (hr.sound (hr.roomy h hroom)).leads hleads (Roster.roomy_roster.mpr hroom)

end Ordered

/-- What a registry has got it keeps. -/
structure Keeps (r r' : Registry LocalHost) : Prop where
  leads : Leads r r'
  parsers : r.runtime.parsers <+: r'.runtime.parsers
  events : ∀ name ∈ r.events.keys, name ∈ r'.events.keys
  handlers : ∀ name ∈ r.host.eventHandlers.keys, name ∈ r'.host.eventHandlers.keys
  idents : IdentsWithin r.host.idents r'.host.idents
  records : r.Ordered → r'.host.Roomy → r.analyzers.Within r'.analyzers

instance : IsPreorder (Registry LocalHost) Keeps where
  refl r := ⟨refl r, List.prefix_refl _, fun _ => id, fun _ => id, identsWithin_refl _,
    fun _ _ => Analyzers.within_refl _⟩
  trans _ _ _ h h' :=
    { leads := IsTrans.trans (r := Leads) _ _ _ h.leads h'.leads
      parsers := h.parsers.trans h'.parsers
      events := fun name hname => h'.events name (h.events name hname)
      handlers := fun name hname => h'.handlers name (h.handlers name hname)
      idents := h.idents.trans h'.idents
      records := fun hr hroom =>
        have hmiddle := hr.leads h.leads
        (h.records hr (hmiddle.roomy h'.leads hroom)).trans (h'.records hmiddle hroom) }

/-- Where parsers, events and identifiers are not touched, only the records matter. -/
theorem Keeps.of_eq {r r' : Registry LocalHost} (hleads : Leads r r')
    (hruntime : r'.runtime.parsers = r.runtime.parsers) (hevents : r'.events = r.events)
    (hhandlers : r'.host.eventHandlers = r.host.eventHandlers)
    (hidents : r'.host.idents = r.host.idents)
    (hrecords : r.Ordered → r'.host.Roomy → r.analyzers.Within r'.analyzers) : Keeps r r' :=
  ⟨hleads, hruntime ▸ List.prefix_refl _, hevents ▸ fun _ => id, hhandlers ▸ fun _ => id,
    hidents ▸ identsWithin_refl _, hrecords⟩

end Registry

namespace LocalHost

/-- The host after an analyzer was added, and what it replaces switched off. -/
def adopt (entry : Entry) (name : String) (replaces : Option UInt32) (h : LocalHost) : LocalHost :=
  (h.supersede entry.kind replaces).enrol entry name

variable (entry : Entry) (name : String) (replaces : Option UInt32) (h : LocalHost)

@[simp] theorem next_supersede (kind : Kind) : (h.supersede kind replaces).next = h.next := by
  cases replaces <;> rfl

@[simp] theorem idents_adopt : (h.adopt entry name replaces).idents = h.idents := by
  cases entry <;> cases replaces <;> rfl

@[simp] theorem eventHandlers_adopt :
    (h.adopt entry name replaces).eventHandlers = h.eventHandlers := by
  cases entry <;> cases replaces <;> rfl

end LocalHost

namespace Registry

/-- An analyzer is added; its record is put into the tables unless its number is zero. -/
def adopted (entry : Entry) (name : String) (replaces : Option UInt32)
    (put : UInt32 → Analyzers → Analyzers) (r : Registry LocalHost) :
    Except Fault Unit × Registry LocalHost :=
  let host := r.host.adopt entry name replaces
  if r.host.next entry.kind = 0 then (.error (.missingTag name), { r with host })
  else (.ok (), { r with host, analyzers := put (r.host.next entry.kind) r.analyzers })

theorem silent_addComponent_bind (name : String) (entry : Entry)
    {store : UInt32 → Op (Registry LocalHost) Unit} {put : UInt32 → Analyzers → Analyzers}
    (hstore : ∀ id r, (store id r).silent = (.ok (), { r with analyzers := put id r.analyzers }))
    (replaces : Option UInt32) (r : Registry LocalHost) :
    ((addComponent name entry >>= store)
      { r with host := r.host.supersede entry.kind replaces }).silent =
        r.adopted entry name replaces put := by
  rw [Op.silent_bind, silent_addComponent, LocalHost.next_supersede, adopted, LocalHost.adopt]
  split
  · rfl
  · rw [Op.proceed_ok, hstore]

theorem silent_registerProtocol {decl : ProtocolDecl} {entry : Entry}
    (hentry : entryFor? decl.transport = some entry) (r : Registry LocalHost) :
    let replaces := r.roster.replaced? .protocol decl.replaces
    (registerProtocol decl r).silent =
      r.adopted entry decl.name replaces (Analyzers.putProtocol decl replaces) := by
  have hkind := kind_of_entryFor? hentry
  rw [registerProtocol, Op.silent_debug_bind, hentry]
  simp only
  rw [Op.silent_bind, silent_replaceProtocol, Op.proceed_ok, ← hkind]
  exact silent_addComponent_bind _ _ (fun _ _ => rfl) _ r

theorem silent_registerProtocol_of_none {decl : ProtocolDecl}
    (hentry : entryFor? decl.transport = none) (r : Registry LocalHost) :
    (registerProtocol decl r).silent = (.ok (), r) := by
  rw [registerProtocol, Op.silent_debug_bind, hentry]
  rfl

theorem silent_registerFile (decl : FileDecl) (r : Registry LocalHost) :
    let replaces := r.roster.replacedFile? decl.replaces
    (registerFile decl r).silent =
      r.adopted .file decl.name replaces (Analyzers.putFile decl replaces) := by
  rw [registerFile, Op.silent_debug_bind, Op.silent_bind, silent_replaceFile, Op.proceed_ok]
  exact silent_addComponent_bind _ .file (fun _ _ => rfl) _ r

theorem silent_registerPacket (decl : PacketDecl) (r : Registry LocalHost) :
    (registerPacket decl r).silent =
      r.adopted .packet decl.name none (Analyzers.putPacket decl) := by
  rw [registerPacket, Op.silent_debug_bind]
  exact silent_addComponent_bind decl.name .packet (fun _ _ => rfl) none r

/-- The slot of the next number is unset. -/
theorem Ordered.unset_next {r r' : Registry LocalHost} (hr : r.Ordered) (h : Leads r r')
    (hroom : r'.host.Roomy) (kind : Kind) :
    r.analyzers.descriptor? ⟨kind, r.host.next kind⟩ = none := by
  have hsound := hr.sound (hr.roomy h hroom)
  cases hd : r.analyzers.descriptor? ⟨kind, r.host.next kind⟩ with
  | none => rfl
  | some d =>
    obtain ⟨entry, -, -, hmem⟩ := (hsound.described _ d hd).carried
    exact absurd (hsound.numbered.lt_next hmem rfl) (UInt32.lt_irrefl _)

theorem keeps_adopted {entry : Entry} {name : String} {replaces : Option UInt32}
    {put : UInt32 → Analyzers → Analyzers} {r r' : Registry LocalHost}
    (hstate : r' = (r.adopted entry name replaces put).2) (hleads : Leads r r')
    (hput : ∀ id, r.analyzers.descriptor? ⟨entry.kind, id⟩ = none →
      r.analyzers.Within (put id r.analyzers)) : Keeps r r' := by
  have hnext := fun hr hroom => hput _ (Ordered.unset_next hr hleads hroom entry.kind)
  rw [adopted] at hstate
  split at hstate <;> subst hstate
  · exact .of_eq hleads rfl rfl (LocalHost.eventHandlers_adopt ..) (LocalHost.idents_adopt ..)
      fun _ _ => Analyzers.within_refl _
  · exact .of_eq hleads rfl rfl (LocalHost.eventHandlers_adopt ..) (LocalHost.idents_adopt ..) hnext

theorem keeps_registerProtocol (decl : ProtocolDecl) : (registerProtocol decl).Follows Keeps := by
  intro r
  cases hentry : entryFor? decl.transport with
  | none =>
    rw [state_of_silent (silent_registerProtocol_of_none hentry r)]
    exact refl r
  | some entry =>
    exact keeps_adopted (congrArg Prod.snd (silent_registerProtocol hentry r))
      (follows_registerProtocol decl r)
      fun _ hnew => Analyzers.within_putProtocol decl _ (kind_of_entryFor? hentry ▸ hnew)

theorem keeps_registerFile (decl : FileDecl) : (registerFile decl).Follows Keeps := fun r =>
  keeps_adopted (congrArg Prod.snd (silent_registerFile decl r)) (follows_registerFile decl r)
    fun _ => Analyzers.within_putFile decl _

theorem keeps_registerPacket (decl : PacketDecl) : (registerPacket decl).Follows Keeps := fun r =>
  keeps_adopted (congrArg Prod.snd (silent_registerPacket decl r)) (follows_registerPacket decl r)
    fun _ => Analyzers.within_putPacket decl

/-- Where the analyzers are not touched, they are kept. -/
theorem Keeps.of_analyzers {r r' : Registry LocalHost} (hanalyzers : r'.analyzers = r.analyzers)
    (hroster : r'.roster = r.roster) (hparsers : r.runtime.parsers <+: r'.runtime.parsers)
    (hevents : ∀ name ∈ r.events.keys, name ∈ r'.events.keys)
    (hhandlers : ∀ name ∈ r.host.eventHandlers.keys, name ∈ r'.host.eventHandlers.keys)
    (hidents : IdentsWithin r.host.idents r'.host.idents) : Keeps r r' :=
  ⟨leads_of_eq hanalyzers hroster, hparsers, hevents, hhandlers, hidents,
    fun _ _ => hanalyzers ▸ Analyzers.within_refl _⟩

theorem keeps_idents {r : Registry LocalHost} {idents : List Ident}
    (h : IdentsWithin r.host.idents idents) : Keeps r (r.withIdents idents) :=
  .of_analyzers rfl rfl (List.prefix_refl _) (fun _ => id) (fun _ => id) h

theorem keeps_runtime (r : Registry LocalHost) {runtime : ParserRuntime}
    (h : r.runtime.parsers <+: runtime.parsers) : Keeps r { r with runtime } :=
  .of_analyzers rfl rfl h (fun _ => id) (fun _ => id) (identsWithin_refl _)

theorem keeps_registerParser (parser : Parser) : (registerParser parser).Follows Keeps :=
  fun r => keeps_runtime r (List.prefix_append _ _)

/-- The name of an event's identifier, with its module. -/
def eventName (name : String) : String := LocalHost.qualify name (eventModule name)

theorem namespace?_isSome (cs : List Char) :
    (namespace? cs).isSome = LocalHost.hasNamespace cs := by
  fun_induction namespace? cs with
  | case1 => rfl
  | case2 c cs h ih =>
    rw [Option.isSome_map, ih, LocalHost.hasNamespace]
    exact h
  | case3 => rfl

/-- The module of an event is part of its name already. -/
theorem eventName_eq (name : String) : eventName name = name := by
  have hspace := namespace?_isSome name.toList
  unfold eventName LocalHost.qualify eventModule
  cases hn : namespace? name.toList with
  | none => simp
  | some cs =>
    rw [hn, Option.isSome_some] at hspace
    simp [← hspace]

/-- The identifiers with that of an event among them, which is exported. -/
def eventIdents (name : String) (h : LocalHost) : List Ident :=
  match h.identIndex? (eventName name) with
  | some n => h.idents.modify n ({ · with exported := true })
  | none => h.idents ++ [⟨eventName name, true, none⟩]

theorem identsWithin_eventIdents (name : String) (h : LocalHost) :
    IdentsWithin h.idents (eventIdents name h) := by
  unfold eventIdents
  split
  · exact identsWithin_modify fun _ _ => ⟨rfl, fun _ => rfl, fun _ => id⟩
  · exact identsWithin_append _ _

/-- The place of the event's identifier among them. -/
def eventIndex (name : String) (h : LocalHost) : Nat :=
  (h.identIndex? (eventName name)).getD h.idents.length

theorem silent_eventIdent (name : String) (r : Registry LocalHost) :
    (eventIdent name r).silent =
      (.ok (eventIndex name r.host), r.withIdents (eventIdents name r.host)) := by
  have hlookup : Host.lookupIdent name (eventModule name) r.host =
      (r.host.identIndex? (eventName name), r.host) := rfl
  rw [eventIdent, silent_askHost_bind, hlookup, eventIdents, eventIndex]
  cases r.host.identIndex? (eventName name) <;> rfl

/-- An event has its handler and its identifier before it comes into the table. -/
theorem silent_registerEvent (name : String) (r : Registry LocalHost) :
    (registerEvent name r).silent = (.ok (), { r with
      host := { r.host with
        idents := eventIdents name r.host
        eventHandlers := r.host.eventHandlers.insert name () }
      events := r.events.insert name (eventIndex name r.host) }) := by
  have hident := silent_eventIdent name { r with host := Host.addEventHandler name r.host }
  rw [registerEvent, silent_changeHost_bind, Op.silent_bind, hident]
  rfl

theorem keeps_registerEvent (name : String) :
    (registerEvent name : Op (Registry LocalHost) Unit).Follows Keeps := by
  intro r
  rw [state_of_silent (silent_registerEvent name r)]
  exact .of_analyzers rfl rfl (List.prefix_refl _)
    (fun _ h => (SortedMap.mem_keys_insert _).mpr (.inr h))
    (fun _ h => (SortedMap.mem_keys_insert ()).mpr (.inr h)) (identsWithin_eventIdents name r.host)

/-- The identifier of an enum type. -/
def enumIdent (space id : String) (labels : List (String × Int64)) : Ident :=
  ⟨LocalHost.qualify id space, true, some (.enum (space ++ "::" ++ id) (enumLabels id labels))⟩

/-- An enum type is installed with its labels, unless an identifier of its name exists. -/
theorem silent_registerEnumType (space id : String) (labels : List (String × Int64))
    (r : Registry LocalHost) : (registerEnumType space id labels r).silent =
      (.ok (), match r.host.identIndex? (LocalHost.qualify id space) with
        | some _ => r
        | none => r.withIdents (r.host.idents ++ [enumIdent space id labels])) := by
  have hlookup : Host.lookupIdent id space r.host =
      (r.host.identIndex? (LocalHost.qualify id space), r.host) := rfl
  rw [registerEnumType, silent_askHost_bind, hlookup]
  cases r.host.identIndex? (LocalHost.qualify id space) with
  | some ident => rfl
  | none =>
    have hmodify := LocalHost.modify_append_singleton r.host.idents
      ⟨LocalHost.qualify id space, true, none⟩
      ({ · with type := some (.enum (space ++ "::" ++ id) (enumLabels id labels)) })
    simp only
    rw [Op.silent_debug_bind, silent_askHost_bind, silent_changeHost]
    exact congrArg (fun idents => ((.ok () : Except Fault Unit), r.withIdents idents)) hmodify

theorem keeps_registerEnumType (space id : String) (labels : List (String × Int64)) :
    (registerEnumType space id labels : Op (Registry LocalHost) Unit).Follows Keeps := by
  intro r
  rw [state_of_silent (silent_registerEnumType space id labels r)]
  split
  · exact refl r
  · exact keeps_idents (identsWithin_append _ _)

theorem keeps_register (registration : Registration) :
    (register registration : Op (Registry LocalHost) Unit).Follows Keeps := by
  cases registration with
  | parser parser => exact keeps_registerParser parser
  | protocol decl => exact keeps_registerProtocol decl
  | file decl => exact keeps_registerFile decl
  | packet decl => exact keeps_registerPacket decl
  | event name => exact keeps_registerEvent name
  | enumType space id labels => exact keeps_registerEnumType space id labels

theorem keeps_run (script : Script) : (run script : Op (Registry LocalHost) Unit).Follows Keeps := by
  apply Op.Follows.forM
  intro step _
  cases step with
  | register registration => exact keeps_register registration
  | fail fault => exact Op.follows_raise fault

/-- Only an identifier without a type gets a placeholder. -/
theorem keeps_assignPlaceholder (name : String) (ident : Nat) :
    (assignPlaceholder name ident : Op (Registry LocalHost) Unit).Follows Keeps := by
  intro r
  rw [state_eq_silent, assignPlaceholder, silent_query_bind]
  split
  · exact refl r
  · next htyped =>
    rw [Op.silent_debug_bind, silent_changeHost]
    refine keeps_idents (identsWithin_modify fun i hi => ⟨rfl, id, fun type htype => ?_⟩)
    have hsome : Host.identHasType r.host ident = true := by
      change ((r.host.idents[ident]?).bind (·.type)).isSome = true
      rw [hi, Option.bind_some, htype]
      rfl
    exact absurd hsome htyped

theorem keeps_assignPlaceholders :
    (assignPlaceholders : Op (Registry LocalHost) Unit).Follows Keeps :=
  (Op.follows_read _).bind fun _ => Op.Follows.forM fun event _ =>
    keeps_assignPlaceholder event.1 event.2

theorem keeps_toggle (tag : Tag) (enable : Bool) :
    (toggle tag enable : Op (Registry LocalHost) Bool).Follows Keeps := by
  apply follows_toggle
  · exact fun id enable r => .of_eq (follows_setProtocolEnabled id enable r) rfl rfl rfl rfl
      fun _ _ => Analyzers.within_refl _
  · exact fun id enable r => .of_eq (follows_setFileEnabled id enable r) rfl rfl rfl rfl
      fun _ _ => Analyzers.within_refl _

theorem keeps_resolve (parsers : List Parser) : (resolve parsers).Follows Keeps := by
  intro r
  obtain ⟨done, hrenews, hstate⟩ := state_resolve parsers r
  have hleads := follows_resolve parsers r
  rw [hstate] at hleads ⊢
  refine .of_eq hleads rfl rfl rfl rfl fun hr _ => ?_
  have hsame := (Task.foldl_store hr.placed (hrenews hr.placed)).2
  exact Analyzers.within_of_unresolved hsame.symm

end Registry

namespace Plugin

open Registry (Keeps)

/-- What a registry has got, every move keeps. -/
theorem Move.keeps {p q : Plugin LocalHost} {t : List Trace} (h : Move p t q) :
    p.registry.Keeps q.registry := by
  cases h with
  | log => exact refl p.registry
  | searchPath dir =>
    exact .of_analyzers rfl rfl (List.prefix_refl _) (fun _ => id) (fun _ => id)
      (identsWithin_refl _)
  | register registration => exact Registry.keeps_register registration p.registry
  | load access path => exact registry_loadOnce Registry.keeps_run access path p
  | placeholders => exact Registry.keeps_assignPlaceholders p.registry
  | start =>
    change Keeps p.registry (startRuntime p.registry).state
    rw [startRuntime_apply]
    split <;> exact Registry.keeps_runtime _ (List.prefix_refl _)
  | stopResolving | resolve => exact Registry.keeps_resolve _ p.registry
  | toggle tag enable => exact Registry.keeps_toggle tag enable p.registry
  | stop => exact Registry.keeps_runtime _ (List.prefix_refl _)

theorem Moves.keeps {p q : Plugin LocalHost} {t : List Trace} (h : Moves p t q) :
    p.registry.Keeps q.registry := h.follows (·.registry) Move.keeps

end Plugin

end TrafficAnalyzers
