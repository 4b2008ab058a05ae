import TrafficAnalyzers.Proofs.Operations
import TrafficAnalyzers.Proofs.Roster
import TrafficAnalyzers.Script
/-!
Registration seen on the roster. Main statements: registering an analyzer switches off the one it
replaces and enrols the new one, and whatever a module registers leads the roster along.
-/
namespace TrafficAnalyzers

/-- The host after a new component got its number and its script location. -/
def LocalHost.enrol (entry : Entry) (name : String) (h : LocalHost) : LocalHost :=
  { (h.allocate entry.kind).2 with
    components :=
      h.components ++ [⟨⟨name, entry⟩, some ⟨entry.kind, h.next entry.kind⟩, true, false⟩]
    scriptLocations :=
      if h.scriptLocations.contains (scriptLocation name) then h.scriptLocations
      else h.scriptLocations ++ [scriptLocation name] }

namespace LocalHost

/-- Switches a component off, if there is one to be replaced. -/
def supersede (kind : Kind) (replaces : Option UInt32) (h : LocalHost) : LocalHost :=
  match replaces with
  | some id => h.setEnabled ⟨kind, id⟩ false
  | none => h

theorem roster_supersede (kind : Kind) (replaces : Option UInt32) (h : LocalHost)
    (descriptor? : Tag → Option Descriptor) :
    (h.supersede kind replaces).roster descriptor? =
      (h.roster descriptor?).supersede kind replaces := by
  cases replaces <;> rfl

theorem next_enrol (entry : Entry) (name : String) (h : LocalHost) :
    (h.enrol entry name).next = Function.update h.next entry.kind (h.next entry.kind + 1) :=
  next_allocate entry.kind h

theorem fileToggle_enrol (entry : Entry) (name : String) (h : LocalHost) :
    (h.enrol entry name).fileToggle = h.fileToggle := by
  cases entry <;> rfl

theorem roster_enrol (entry : Entry) (name : String) (h : LocalHost)
    (descriptor? : Tag → Option Descriptor) (replaces : Option UInt32) (replacedName : String) :
    (h.enrol entry name).roster
        (if h.next entry.kind = 0 then descriptor?
          else Function.update descriptor? ⟨entry.kind, h.next entry.kind⟩ (some ⟨h.next entry.kind,
            name, some entry, scriptLocation name, replaces, replacedName⟩)) =
      (h.roster descriptor?).enrol entry name replaces replacedName := by
  rw [roster, next_enrol, fileToggle_enrol]
  rfl

theorem components_addScriptLocation (location : String) (h : LocalHost) :
    (Host.addScriptLocation location h).components = h.components := by
  simp only [Host.addScriptLocation]
  split <;> rfl

theorem modify_append_singleton {α : Type} (l : List α) (a : α) (f : α → α) :
    (l ++ [a]).modify l.length f = l ++ [f a] := by
  rw [List.modify_eq_take_drop]
  simp

/-- A component that was just added gets the next number of its kind. -/
theorem initComponent_added (name : String) (entry : Entry) (h : LocalHost) :
    Host.initComponent (Host.addComponent ⟨name, entry⟩ h).1
        (Host.addScriptLocation (scriptLocation name) (Host.addComponent ⟨name, entry⟩ h).2) =
      (some ⟨entry.kind, h.next entry.kind⟩, h.enrol entry name) := by
  change initComponent h.components.length _ = _
  rw [initComponent, components_addScriptLocation]
  simp only [Host.addComponent, List.getElem?_concat_length]
  cases entry <;>
    simp only [Host.addScriptLocation, allocate, enrol, next, Entry.kind] <;>
    split <;> simp [modify_append_singleton]

end LocalHost

namespace Registry

section Silent

variable {H α : Type}

@[simp] theorem silent_query (f : H → α) (r : Registry H) :
    (query f r).silent = (.ok (f r.host), r) := rfl

@[simp] theorem silent_changeHost (f : H → H) (r : Registry H) :
    (changeHost f r).silent = (.ok (), { r with host := f r.host }) := rfl

@[simp] theorem silent_askHost (f : H → α × H) (r : Registry H) :
    (askHost f r).silent = (.ok (f r.host).1, { r with host := (f r.host).2 }) := rfl

variable {β : Type}

theorem silent_query_bind (f : H → α) (g : α → Op (Registry H) β) (r : Registry H) :
    ((query f >>= g) r).silent = (g (f r.host) r).silent := by
  rw [Op.silent_bind, silent_query, Op.proceed_ok]

theorem silent_changeHost_bind (f : H → H) (x : Op (Registry H) β) (r : Registry H) :
    ((do changeHost f; x : Op _ β) r).silent = (x { r with host := f r.host }).silent := by
  rw [Op.silent_bind, silent_changeHost, Op.proceed_ok]

theorem silent_askHost_bind (f : H → α × H) (g : α → Op (Registry H) β) (r : Registry H) :
    ((askHost f >>= g) r).silent = (g (f r.host).1 { r with host := (f r.host).2 }).silent := by
  rw [Op.silent_bind, silent_askHost, Op.proceed_ok]

end Silent

/-- A component is added in any case; a number of zero is no use. -/
theorem silent_addComponent (name : String) (entry : Entry) (r : Registry LocalHost) :
    (addComponent name entry r).silent =
      (if r.host.next entry.kind = 0 then .error (.missingTag name)
        else .ok (r.host.next entry.kind), { r with host := r.host.enrol entry name }) := by
  rw [addComponent, silent_askHost_bind, silent_changeHost_bind, silent_askHost_bind,
    LocalHost.initComponent_added]
  by_cases h0 : r.host.next entry.kind = 0 <;> simp [h0, Outcome.silent]

/-- An operation that records what it is given at a number that is not zero, and does no more. -/
structure Records (entry : Entry) (name : String) (replaces : Option UInt32)
    (replacedName : String) (store : UInt32 → Op (Registry LocalHost) Unit) : Prop where
  host : ∀ id r, (store id r).state.host = r.host
  descriptor? : ∀ id r, id ≠ 0 → (store id r).state.analyzers.descriptor? =
    Function.update r.analyzers.descriptor? ⟨entry.kind, id⟩
      (some ⟨id, name, some entry, scriptLocation name, replaces, replacedName⟩)
  placed : ∀ id r, r.analyzers.Placed → (store id r).state.analyzers.Placed

section Add

variable {entry : Entry} {name replacedName : String} {replaces : Option UInt32}
  {store : UInt32 → Op (Registry LocalHost) Unit}

/-- A component that is added and recorded is enrolled. -/
theorem roster_addComponent_bind (hs : Records entry name replaces replacedName store)
    (r : Registry LocalHost) : ((addComponent name entry >>= store) r).state.roster =
      r.roster.enrol entry name replaces replacedName := by
  have hout := Op.silent_bind (addComponent name entry) store r
  rw [silent_addComponent] at hout
  by_cases h0 : r.host.next entry.kind = 0
  · rw [if_pos h0, Op.proceed_error] at hout
    rw [state_of_silent hout, roster, roster, ← LocalHost.roster_enrol, if_pos h0]
  · rw [if_neg h0, Op.proceed_ok] at hout
    rw [state_of_silent hout, roster, roster, ← LocalHost.roster_enrol, if_neg h0, hs.host,
      hs.descriptor? _ _ h0]

theorem placed_addComponent_bind (hs : Records entry name replaces replacedName store)
    {r : Registry LocalHost} (hr : r.analyzers.Placed) :
    ((addComponent name entry >>= store) r).state.analyzers.Placed := by
  rw [Op.bind_apply, Op.state_andThen, state_of_silent (silent_addComponent name entry r)]
  split
  · exact hs.placed _ _ hr
  · exact hr

end Add

theorem records_storeProtocol {decl : ProtocolDecl} {entry : Entry}
    (he : entryFor? decl.transport = some entry) (hk : entry.kind = .protocol)
    (replaces : Option UInt32) :
    Records entry decl.name replaces decl.replaces fun id =>
      storeProtocol ⟨id, decl, scriptLocation decl.name, replaces, none, none⟩ where
  host _ _ := rfl
  descriptor? _ _ h0 := by
    rw [hk, ← he]
    exact Analyzers.descriptor?_insertProtocol (p := ⟨_, decl, _, replaces, none, none⟩) h0
  placed _ _ hp := hp.insertProtocol _

theorem records_storeFile (decl : FileDecl) (replaces : Option UInt32) :
    Records .file decl.name replaces decl.replaces fun id =>
      storeFile ⟨id, decl, scriptLocation decl.name, replaces, none⟩ where
  host _ _ := rfl
  descriptor? _ _ h0 :=
    Analyzers.descriptor?_insertFile (p := ⟨_, decl, _, replaces, none⟩) h0
  placed _ _ hp := hp.insertFile _

theorem records_storePacket (decl : PacketDecl) :
    Records .packet decl.name none "" fun id =>
      storePacket ⟨id, decl, scriptLocation decl.name, none⟩ where
  host _ _ := rfl
  descriptor? _ _ h0 := Analyzers.descriptor?_insertPacket (p := ⟨_, decl, _, none⟩) h0
  placed _ _ hp := hp.insertPacket _

theorem roster_superseded (kind : Kind) (replaces : Option UInt32) (r : Registry LocalHost) :
    ({ r with host := r.host.supersede kind replaces } : Registry LocalHost).roster =
      r.roster.supersede kind replaces :=
  LocalHost.roster_supersede kind replaces r.host _

theorem silent_replaceProtocol (name replaces : String) (r : Registry LocalHost) :
    (replaceProtocol name replaces r).silent =
      (.ok (r.roster.replaced? .protocol replaces),
        { r with host := r.host.supersede .protocol (r.roster.replaced? .protocol replaces) }) := by
  unfold replaceProtocol Roster.replaced?
  split
  · rfl
  · have hid : Host.protocolId? r.host replaces = r.roster.id? .protocol replaces := rfl
    rw [silent_query_bind, hid]
    cases r.roster.id? .protocol replaces <;> rfl

theorem silent_replaceFile (name replaces : String) (r : Registry LocalHost) :
    (replaceFile name replaces r).silent =
      (.ok (r.roster.replacedFile? replaces),
        { r with host := r.host.supersede .file (r.roster.replacedFile? replaces) }) := by
  have hable : Host.supportsFileToggle r.host = r.roster.fileToggle := rfl
  unfold replaceFile Roster.replacedFile? Roster.replaced?
  rw [silent_query_bind, hable]
  cases r.roster.fileToggle with
  | false =>
    rw [if_pos (.inr rfl)]
    rfl
  | true =>
    by_cases hnone : replaces = ""
    · simp only [hnone, true_or, ↓reduceIte]
      rfl
    · have hid : Host.fileId? r.host replaces = r.roster.id? .file replaces := rfl
      rw [if_neg (by simp [hnone]), if_neg hnone, silent_query_bind, hid]
      cases r.roster.id? .file replaces <;> rfl

theorem kind_of_entryFor? {transport : Transport} {entry : Entry}
    (h : entryFor? transport = some entry) : entry.kind = .protocol := by
  cases transport <;> simp only [entryFor?, Option.some.injEq, reduceCtorEq] at h <;>
    rw [← h] <;> rfl

/-- A protocol analyzer over a transport without an entry leaves the roster as it is. -/
theorem roster_registerProtocol (decl : ProtocolDecl) (r : Registry LocalHost) :
    (registerProtocol decl r).state.roster =
      match entryFor? decl.transport with
      | none => r.roster
      | some entry =>
        let replaces := r.roster.replaced? .protocol decl.replaces
        (r.roster.supersede .protocol replaces).enrol entry decl.name replaces decl.replaces := by
  rw [state_eq_silent, registerProtocol, Op.silent_debug_bind]
  cases he : entryFor? decl.transport with
  | none => rfl
  | some entry =>
    have hk := kind_of_entryFor? he
    simp only
    rw [Op.silent_bind, silent_replaceProtocol, Op.proceed_ok, ← state_eq_silent,
      roster_addComponent_bind (records_storeProtocol he hk _), roster_superseded]

theorem roster_registerFile (decl : FileDecl) (r : Registry LocalHost) :
    (registerFile decl r).state.roster =
      let replaces := r.roster.replacedFile? decl.replaces
      (r.roster.supersede .file replaces).enrol .file decl.name replaces decl.replaces := by
  rw [state_eq_silent, registerFile, Op.silent_debug_bind,
    Op.silent_bind, silent_replaceFile, Op.proceed_ok, ← state_eq_silent,
    roster_addComponent_bind (records_storeFile decl _), roster_superseded]

theorem roster_registerPacket (decl : PacketDecl) (r : Registry LocalHost) :
    (registerPacket decl r).state.roster = r.roster.enrol .packet decl.name none "" := by
  rw [state_eq_silent, registerPacket, Op.silent_debug_bind,
    ← state_eq_silent, roster_addComponent_bind (records_storePacket decl)]

theorem placed_registerProtocol (decl : ProtocolDecl) {r : Registry LocalHost}
    (hr : r.analyzers.Placed) : (registerProtocol decl r).state.analyzers.Placed := by
  rw [state_eq_silent, registerProtocol, Op.silent_debug_bind]
  cases he : entryFor? decl.transport with
  | none => exact hr
  | some entry =>
    simp only
    rw [Op.silent_bind, silent_replaceProtocol, Op.proceed_ok, ← state_eq_silent]
    exact placed_addComponent_bind (records_storeProtocol he (kind_of_entryFor? he) _) hr

theorem placed_registerFile (decl : FileDecl) {r : Registry LocalHost}
    (hr : r.analyzers.Placed) : (registerFile decl r).state.analyzers.Placed := by
  rw [state_eq_silent, registerFile, Op.silent_debug_bind,
    Op.silent_bind, silent_replaceFile, Op.proceed_ok, ← state_eq_silent]
  exact placed_addComponent_bind (records_storeFile decl _) hr

theorem placed_registerPacket (decl : PacketDecl) {r : Registry LocalHost}
    (hr : r.analyzers.Placed) : (registerPacket decl r).state.analyzers.Placed := by
  rw [state_eq_silent, registerPacket, Op.silent_debug_bind,
    ← state_eq_silent]
  exact placed_addComponent_bind (records_storePacket decl) hr

/-- From a registry with all records in their places the roster takes some steps, and the records
stay in their places. -/
def Leads (r r' : Registry LocalHost) : Prop :=
  r.analyzers.Placed → r'.analyzers.Placed ∧ r.roster.Leads r'.roster

instance : IsPreorder (Registry LocalHost) Leads where
  refl _ hp := ⟨hp, .refl⟩
  trans _ _ _ h h' hp := ⟨(h' (h hp).1).1, (h hp).2.trans (h' (h hp).1).2⟩

/-- What concerns neither the analyzers nor the host's components leaves the roster alone. -/
theorem leads_of_eq {r r' : Registry LocalHost} (ha : r'.analyzers = r.analyzers)
    (hr : r'.roster = r.roster) : Leads r r' := by
  intro hp
  rw [ha, hr]
  exact ⟨hp, .refl⟩

theorem follows_registerProtocol (decl : ProtocolDecl) : (registerProtocol decl).Follows Leads := by
  intro r hr
  refine ⟨placed_registerProtocol decl hr, ?_⟩
  rw [roster_registerProtocol]
  cases he : entryFor? decl.transport with
  | none => exact .refl
  | some entry =>
    have hk := kind_of_entryFor? he
    simp only [← hk]
    exact Roster.leads_enrol entry decl.name fun id => Roster.id?_of_replaced?

theorem follows_registerFile (decl : FileDecl) : (registerFile decl).Follows Leads := by
  intro r hr
  refine ⟨placed_registerFile decl hr, ?_⟩
  rw [roster_registerFile]
  exact Roster.leads_enrol .file decl.name fun id => Roster.id?_of_replacedFile?

theorem follows_registerPacket (decl : PacketDecl) : (registerPacket decl).Follows Leads := by
  intro r hr
  refine ⟨placed_registerPacket decl hr, ?_⟩
  rw [roster_registerPacket]
  exact .single (.enrol .packet decl.name none "" r.roster (by simp))

theorem follows_changeHost {f : LocalHost → LocalHost}
    (hf : ∀ h descriptor?, (f h).roster descriptor? = h.roster descriptor?) :
    (changeHost f).Follows Leads := fun r => leads_of_eq rfl (hf r.host _)

theorem follows_askHost {α : Type} {f : LocalHost → α × LocalHost}
    (hf : ∀ h descriptor?, (f h).2.roster descriptor? = h.roster descriptor?) :
    (askHost f).Follows Leads := fun r => leads_of_eq rfl (hf r.host _)

theorem follows_registerParser (parser : Parser) : (registerParser parser).Follows Leads :=
  (Op.follows_emit _).bind fun _ => (Op.follows_debug _).bind fun _ =>
    Op.follows_update fun _ => leads_of_eq rfl rfl

theorem follows_eventIdent (name : String) :
    (eventIdent name : Op (Registry LocalHost) Nat).Follows Leads := by
  apply Op.Follows.bind
  · exact follows_askHost fun _ _ => rfl
  · intro ident
    cases ident with
    | none => exact follows_askHost fun _ _ => rfl
    | some ident =>
      apply Op.Follows.bind
      · exact follows_changeHost fun _ _ => rfl
      · exact fun _ => Op.follows_pure ident

theorem follows_registerEvent (name : String) : (registerEvent name).Follows Leads := by
  apply Op.Follows.bind
  · exact follows_changeHost fun _ _ => rfl
  · exact fun _ => (follows_eventIdent name).bind fun _ =>
      Op.follows_update fun _ => leads_of_eq rfl rfl

theorem follows_assignPlaceholders :
    (assignPlaceholders : Op (Registry LocalHost) Unit).Follows Leads := by
  refine (Op.follows_read _).bind fun events => Op.Follows.forM fun event _ => ?_
  refine (Op.follows_read _).bind fun typed => ?_
  split
  · exact Op.follows_pure ()
  · refine (Op.follows_debug _).bind fun _ => ?_
    exact follows_changeHost fun _ _ => rfl

theorem follows_registerEnumType (space id : String) (labels : List (String × Int64)) :
    (registerEnumType space id labels).Follows Leads := by
  apply Op.Follows.bind
  · exact follows_askHost fun _ _ => rfl
  · intro ident
    cases ident with
    | some ident => exact Op.follows_pure ()
    | none =>
      refine (Op.follows_debug _).bind fun _ => Op.Follows.bind ?_ ?_
      · exact follows_askHost fun _ _ => rfl
      · exact fun _ => follows_changeHost fun _ _ => rfl

theorem follows_register (registration : Registration) : (register registration).Follows Leads := by
  cases registration with
  | parser parser => exact follows_registerParser parser
  | protocol decl => exact follows_registerProtocol decl
  | file decl => exact follows_registerFile decl
  | packet decl => exact follows_registerPacket decl
  | event name => exact follows_registerEvent name
  | enumType space id labels => exact follows_registerEnumType space id labels

/-- A module leads the roster along also if it gives up midway. -/
theorem follows_run (script : Script) : (run script).Follows Leads := by
  apply Op.Follows.forM
  intro step _
  cases step with
  | register registration => exact follows_register registration
  | fail fault => exact Op.follows_raise fault

end Registry

end TrafficAnalyzers
