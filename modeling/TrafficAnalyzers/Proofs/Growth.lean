import Mathlib.Logic.Relation
import TrafficAnalyzers.Proofs.Roster
import TrafficAnalyzers.Proofs.Traces
import TrafficAnalyzers.Script
/-!
What registration can do, whatever the host answers. Main statement: it puts records without parsers
into the tables, adds parsers to those of the runtime, leaves behind only messages and calls that
hand parsers over, and makes only requests of its own to the host.
-/
namespace TrafficAnalyzers

namespace Analyzers

/-- The record of an analyzer just registered is put into its table. -/
inductive Gain : Analyzers → Analyzers → Prop
  | protocol (a : Analyzers) (id : UInt32) (decl : ProtocolDecl) (replaces : Option UInt32) :
      Gain a { a with
        protocol := a.protocol.insert ⟨id, decl, scriptLocation decl.name, replaces, none, none⟩ }
  | file (a : Analyzers) (id : UInt32) (decl : FileDecl) (replaces : Option UInt32) :
      Gain a { a with
        file := a.file.insert ⟨id, decl, scriptLocation decl.name, replaces, none⟩ }
  | packet (a : Analyzers) (id : UInt32) (decl : PacketDecl) :
      Gain a { a with packet := a.packet.insert ⟨id, decl, scriptLocation decl.name, none⟩ }

/-- Any number of gains. -/
abbrev Gains : Analyzers → Analyzers → Prop := Relation.ReflTransGen Gain

/-- No record has a parser. -/
structure Unset (a : Analyzers) : Prop where
  protocol : ∀ id p, a.protocol.get? id = some p → p.originator = none ∧ p.responder = none
  file : ∀ id p, a.file.get? id = some p → p.parser = none
  packet : ∀ id p, a.packet.get? id = some p → p.parser = none

variable {a b : Analyzers}

theorem Placed.gain (ha : a.Placed) (h : Gain a b) : b.Placed := by
  cases h with
  | protocol => exact ha.insertProtocol _
  | file => exact ha.insertFile _
  | packet => exact ha.insertPacket _

theorem Placed.gains (ha : a.Placed) (h : Gains a b) : b.Placed := by
  induction h with
  | refl => exact ha
  | tail _ hgain ih => exact ih.gain hgain

theorem unset_empty : empty.Unset :=
  ⟨fun _ _ h => by simp [empty] at h, fun _ _ h => by simp [empty] at h,
    fun _ _ h => by simp [empty] at h⟩

/-- What is found in a table after an insertion is the record inserted or was found before. -/
theorem get?_insert_cases {δ : Type} [Slotted δ] {t : SlotTable δ} {d e : δ} {id : UInt32}
    (h : (t.insert d).get? id = some e) : e = d ∨ t.get? id = some e := by
  rw [SlotTable.get?_insert] at h
  split at h
  · split at h
    · contradiction
    · exact .inl (Option.some.inj h).symm
  · exact .inr h

theorem Unset.gain (ha : a.Unset) (h : Gain a b) : b.Unset := by
  cases h with
  | protocol =>
    refine ⟨fun i p hp => ?_, ha.file, ha.packet⟩
    rcases get?_insert_cases hp with rfl | hp
    · exact ⟨rfl, rfl⟩
    · exact ha.protocol i p hp
  | file =>
    refine ⟨ha.protocol, fun i p hp => ?_, ha.packet⟩
    rcases get?_insert_cases hp with rfl | hp
    · rfl
    · exact ha.file i p hp
  | packet =>
    refine ⟨ha.protocol, ha.file, fun i p hp => ?_⟩
    rcases get?_insert_cases hp with rfl | hp
    · rfl
    · exact ha.packet i p hp

theorem Unset.gains (ha : a.Unset) (h : Gains a b) : b.Unset := by
  induction h with
  | refl => exact ha
  | tail _ hgain ih => exact ih.gain hgain

end Analyzers

/-- A request that registration makes to a host. -/
inductive Host.Request {H : Type} [Host H] : H → H → Prop
  | addComponent (component : Component) (h : H) : Request h (Host.addComponent component h).2
  | addScriptLocation (name : String) (h : H) : Request h (Host.addScriptLocation name h)
  | initComponent (component : Nat) (h : H) : Request h (Host.initComponent component h).2
  | disableProtocol (id : UInt32) (h : H) : Request h (Host.setProtocolEnabled id false h)
  | disableFile (id : UInt32) (h : H) : Request h (Host.setFileEnabled id false h).2
  | addEventHandler (name : String) (h : H) : Request h (Host.addEventHandler name h)
  | lookupIdent (name module : String) (h : H) : Request h (Host.lookupIdent name module h).2
  | installIdent (name module : String) (exported : Bool) (h : H) :
      Request h (Host.installIdent name module exported h).2
  | exportIdent (ident : Nat) (h : H) : Request h (Host.exportIdent ident h)
  | setIdentType (ident : Nat) (type : IdentType) (h : H) : Request h (Host.setIdentType ident type h)

/-- Any number of requests. -/
abbrev Host.Requests {H : Type} [Host H] : H → H → Prop := Relation.ReflTransGen Host.Request

/-- Messages, and parsers handed to the runtime. -/
def Trace.ofRegistration : Trace → Bool
  | .log .. => true
  | .runtime (.registered _) => true
  | _ => false

namespace Registry

variable {H α : Type}

/-- What can come of registrations: tables and runtime gain, and nothing else is left behind. -/
structure Grows (r : Registry H) (t : List Trace) (r' : Registry H) : Prop where
  analyzers : r.analyzers.Gains r'.analyzers
  parsers : r.runtime.parsers <+: r'.runtime.parsers
  options : r'.runtime.options = r.runtime.options
  failures : r'.runtime.failures = r.runtime.failures
  traces : ∀ e ∈ t, e.ofRegistration

instance : Op.Chains (Grows (H := H)) where
  nil _ := ⟨.refl, List.prefix_refl _, rfl, rfl, nofun⟩
  append h h' := ⟨h.analyzers.trans h'.analyzers, h.parsers.trans h'.parsers,
    h'.options.trans h.options, h'.failures.trans h.failures,
    List.forall_mem_append.mpr ⟨h.traces, h'.traces⟩⟩

variable [Host H]

/-- The registry grows, and registration's requests are all that changes its host. -/
structure Enlarges (r : Registry H) (t : List Trace) (r' : Registry H) : Prop extends
    Grows r t r' where
  requests : Host.Requests r.host r'.host

instance : Op.Chains (Enlarges (H := H)) where
  nil r := ⟨Op.Chains.nil r, .refl⟩
  append h h' := ⟨Op.Chains.append h.toGrows h'.toGrows, h.requests.trans h'.requests⟩

theorem enlarges_of_eq {r r' : Registry H} (ha : r'.analyzers = r.analyzers)
    (hr : r'.runtime = r.runtime) (hrequests : Host.Requests r.host r'.host) :
    Enlarges r [] r' := by
  refine ⟨⟨ha ▸ .refl, hr ▸ List.prefix_refl _, ?_, ?_, nofun⟩, hrequests⟩ <;> rw [hr]

/-- A record without parsers comes into its table. -/
theorem enlarges_changeAnalyzers {f : Analyzers → Analyzers} (hf : ∀ a : Analyzers, a.Gain (f a)) :
    (changeAnalyzers f : Op (Registry H) Unit).Yields Enlarges := fun r =>
  ⟨⟨.single (hf r.analyzers), List.prefix_refl _, rfl, rfl, nofun⟩, .refl⟩

theorem enlarges_changeHost {f : H → H} (hf : ∀ h, Host.Request h (f h)) :
    (changeHost f).Yields Enlarges := fun r => enlarges_of_eq rfl rfl (.single (hf r.host))

theorem enlarges_askHost {f : H → α × H} (hf : ∀ h, Host.Request h (f h).2) :
    (askHost f).Yields Enlarges := fun r => enlarges_of_eq rfl rfl (.single (hf r.host))

theorem enlarges_log (level : Level) (text : String) :
    (Op.emit (.log level text) : Op (Registry H) Unit).Yields Enlarges := fun _ =>
  ⟨⟨.refl, List.prefix_refl _, rfl, rfl, List.forall_mem_singleton.mpr rfl⟩, .refl⟩

theorem enlarges_registerParser (parser : Parser) :
    (registerParser parser : Op (Registry H) Unit).Yields Enlarges := by
  refine Op.Yields.bind ?_ fun _ => (enlarges_log .debug _).bind fun _ => ?_
  · exact fun _ =>
      ⟨⟨.refl, List.prefix_refl _, rfl, rfl, List.forall_mem_singleton.mpr rfl⟩, .refl⟩
  · exact fun _ => ⟨⟨.refl, List.prefix_append _ _, rfl, rfl, nofun⟩, .refl⟩

theorem enlarges_addComponent (name : String) (entry : Entry) :
    (addComponent name entry : Op (Registry H) UInt32).Yields Enlarges := by
  refine (enlarges_askHost (.addComponent _)).bind fun component =>
    (enlarges_changeHost (.addScriptLocation _)).bind fun _ =>
      (enlarges_askHost (.initComponent component)).bind fun tag => ?_
  cases tag with
  | none => exact Op.yields_raise _
  | some tag =>
    dsimp only
    split
    · exact Op.yields_pure _
    · exact Op.yields_raise _

theorem enlarges_replaceProtocol (name replaces : String) :
    (replaceProtocol name replaces : Op (Registry H) (Option UInt32)).Yields Enlarges := by
  unfold replaceProtocol
  split
  · exact Op.yields_pure _
  · refine (Op.yields_read _).bind fun id => ?_
    cases id with
    | none => exact (enlarges_log .debug _).bind fun _ => Op.yields_pure _
    | some id =>
      exact (enlarges_log .debug _).bind fun _ =>
        (enlarges_changeHost (.disableProtocol id)).bind fun _ => Op.yields_pure _

theorem enlarges_replaceFile (name replaces : String) :
    (replaceFile name replaces : Op (Registry H) (Option UInt32)).Yields Enlarges := by
  refine (Op.yields_read _).bind fun able => ?_
  split
  · exact Op.yields_pure _
  · refine (Op.yields_read _).bind fun id => ?_
    cases id with
    | none => exact (enlarges_log .debug _).bind fun _ => Op.yields_pure _
    | some id =>
      exact (enlarges_log .debug _).bind fun _ =>
        (enlarges_askHost (.disableFile id)).bind fun _ => Op.yields_pure _

theorem enlarges_registerProtocol (decl : ProtocolDecl) :
    (registerProtocol decl : Op (Registry H) Unit).Yields Enlarges := by
  refine (enlarges_log .debug _).bind fun _ => ?_
  split
  · exact enlarges_log .error _
  · exact (enlarges_replaceProtocol _ _).bind fun _ => (enlarges_addComponent _ _).bind fun _ =>
      enlarges_changeAnalyzers fun a => .protocol a _ _ _

theorem enlarges_registerFile (decl : FileDecl) :
    (registerFile decl : Op (Registry H) Unit).Yields Enlarges :=
  (enlarges_log .debug _).bind fun _ => (enlarges_replaceFile _ _).bind fun _ =>
    (enlarges_addComponent _ _).bind fun _ =>
      enlarges_changeAnalyzers fun a => .file a _ _ _

theorem enlarges_registerPacket (decl : PacketDecl) :
    (registerPacket decl : Op (Registry H) Unit).Yields Enlarges :=
  (enlarges_log .debug _).bind fun _ => (enlarges_addComponent _ _).bind fun _ =>
    enlarges_changeAnalyzers fun a => .packet a _ _

theorem enlarges_eventIdent (name : String) :
    (eventIdent name : Op (Registry H) Nat).Yields Enlarges := by
  refine (enlarges_askHost (.lookupIdent _ _)).bind fun ident => ?_
  cases ident with
  | none => exact enlarges_askHost (.installIdent _ _ _)
  | some ident => exact (enlarges_changeHost (.exportIdent ident)).bind fun _ => Op.yields_pure _

theorem enlarges_registerEvent (name : String) :
    (registerEvent name : Op (Registry H) Unit).Yields Enlarges :=
  (enlarges_changeHost (.addEventHandler name)).bind fun _ => (enlarges_eventIdent name).bind fun _ =>
    Op.yields_update fun _ => enlarges_of_eq rfl rfl .refl

theorem enlarges_registerEnumType (space id : String) (labels : List (String × Int64)) :
    (registerEnumType space id labels : Op (Registry H) Unit).Yields Enlarges := by
  refine (enlarges_askHost (.lookupIdent _ _)).bind fun ident => ?_
  cases ident with
  | some ident => exact Op.yields_pure _
  | none =>
    exact (enlarges_log .debug _).bind fun _ =>
      (enlarges_askHost (.installIdent _ _ _)).bind fun ident =>
        enlarges_changeHost (.setIdentType ident _)

theorem enlarges_register (registration : Registration) :
    (register registration : Op (Registry H) Unit).Yields Enlarges := by
  cases registration with
  | parser parser => exact enlarges_registerParser parser
  | protocol decl => exact enlarges_registerProtocol decl
  | file decl => exact enlarges_registerFile decl
  | packet decl => exact enlarges_registerPacket decl
  | event name => exact enlarges_registerEvent name
  | enumType space id labels => exact enlarges_registerEnumType space id labels

/-- So does a module, also one that gives up midway. -/
theorem enlarges_run (script : Script) : (run script : Op (Registry H) Unit).Yields Enlarges := by
  apply Op.Yields.forM
  intro step _
  cases step with
  | register registration => exact enlarges_register registration
  | fail fault => exact Op.yields_raise fault

theorem grows_register (registration : Registration) :
    (register registration : Op (Registry H) Unit).Yields Grows :=
  fun r => (enlarges_register registration r).toGrows

theorem grows_run (script : Script) : (run script : Op (Registry H) Unit).Yields Grows :=
  fun r => (enlarges_run script r).toGrows

end Registry

/-- Tables that registrations fill, one after the other and over any hosts. -/
inductive Analyzers.Built : Analyzers → Prop
  | empty : Built .empty
  | register {H : Type} [Host H] (registration : Registration) {r : Registry H} :
      Built r.analyzers → Built (Registry.register registration r).state.analyzers

theorem Analyzers.Built.placed {a : Analyzers} (h : a.Built) : a.Placed := by
  induction h with
  | empty => exact placed_empty
  | register registration _ ih =>
    exact ih.gains (Registry.grows_register registration _).analyzers

end TrafficAnalyzers
