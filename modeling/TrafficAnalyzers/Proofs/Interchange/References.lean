import TrafficAnalyzers.Proofs.Modules.Completion
/-!
What ports, MIME types and events refer to. Main statement: calls, and what scripts do to the host
between them, bind nothing to other analyzers than the host has, and keep with every event the place
of its identifier.
-/
namespace TrafficAnalyzers

/-- Identifiers are found in the places in which they were found. -/
theorem IdentsWithin.identIndex? {h h' : LocalHost} (hwithin : IdentsWithin h.idents h'.idents)
    {name : String} {n : Nat} (hn : h.identIndex? name = some n) :
    h'.identIndex? name = some n := by
  obtain ⟨hlt, hname, hbefore⟩ := List.findIdx?_eq_some_iff_getElem.mp hn
  have hplace (m : Nat) (hm : m < h.idents.length) :
      ∃ hm' : m < h'.idents.length, h'.idents[m].name = h.idents[m].name := by
    obtain ⟨i, hi, hsame⟩ := hwithin m _ (List.getElem?_eq_getElem hm)
    obtain ⟨hm', rfl⟩ := List.getElem?_eq_some_iff.mp hi
    exact ⟨hm', hsame.name⟩
  obtain ⟨hlt', hname'⟩ := hplace n hlt
  refine List.findIdx?_eq_some_iff_getElem.mpr ⟨hlt', ?_, fun m hm => ?_⟩
  · rwa [hname']
  · obtain ⟨hm', hsame⟩ := hplace m (by omega)
    rw [hsame]
    exact hbefore m hm

namespace Registry

/-- What is bound is bound to analyzers whose tags components carry, and with every event stands the
place of its identifier. -/
structure Tied (r : Registry LocalHost) : Prop where
  bindings : ∀ b ∈ r.host.portBindings, r.host.carries ⟨.protocol, b.id⟩ = true
  queued : ∀ e ∈ r.host.queuedEvents, ∀ id, .fileTag id ∈ e.args →
    r.host.carries ⟨.file, id⟩ = true
  events : ∀ e ∈ r.events.entries, r.host.identIndex? e.1 = some e.2

/-- Nothing is bound, and no event comes in. -/
structure Unbound (r r' : Registry LocalHost) : Prop where
  bindings : r'.host.portBindings = r.host.portBindings
  queued : r'.host.queuedEvents = r.host.queuedEvents
  events : r'.events = r.events

instance : IsPreorder (Registry LocalHost) Unbound where
  refl _ := ⟨rfl, rfl, rfl⟩
  trans _ _ _ h h' :=
    ⟨h'.bindings.trans h.bindings, h'.queued.trans h.queued, h'.events.trans h.events⟩

variable {r r' : Registry LocalHost}

theorem carries_iff {h : LocalHost} {descriptor? : Tag → Option Descriptor} {tag : Tag} :
    h.carries tag = true ↔ ∃ m ∈ (h.roster descriptor?).marks, m.tag = some tag := by
  simp [LocalHost.carries, Roster.marks, LocalHost.roster, ComponentRecord.mark]

/-- A tag once carried is always carried. -/
theorem Leads.carries (h : Leads r r') (hp : r.analyzers.Placed) {tag : Tag}
    (ht : r.host.carries tag = true) : r'.host.carries tag = true := by
  obtain ⟨m, hm, htag⟩ := carries_iff.mp ht
  have hprefix := Roster.marks_leads (h hp).2
  exact carries_iff.mpr ⟨m, hprefix.subset hm, htag⟩

theorem Tied.unbound (h : r.Tied) (hp : r.analyzers.Placed) (hkeeps : Keeps r r')
    (hun : Unbound r r') : r'.Tied where
  bindings b hb := hkeeps.leads.carries hp (h.bindings b (hun.bindings ▸ hb))
  queued e he id hid := hkeeps.leads.carries hp (h.queued e (hun.queued ▸ he) id hid)
  events e he := hkeeps.idents.identIndex? (h.events e (hun.events ▸ he))

theorem unbound_adopted (entry : Entry) (name : String) (replaces : Option UInt32)
    (put : UInt32 → Analyzers → Analyzers) (r : Registry LocalHost) :
    Unbound r (r.adopted entry name replaces put).2 := by
  unfold adopted
  split <;> cases entry <;> cases replaces <;> exact ⟨rfl, rfl, rfl⟩

theorem unbound_registerProtocol (decl : ProtocolDecl) :
    (registerProtocol decl).Follows Unbound := by
  intro r
  cases hentry : entryFor? decl.transport with
  | none =>
    rw [state_of_silent (silent_registerProtocol_of_none hentry r)]
    exact refl r
  | some entry =>
    rw [state_of_silent (silent_registerProtocol hentry r)]
    exact unbound_adopted ..

theorem unbound_registerEnumType (space id : String) (labels : List (String × Int64)) :
    (registerEnumType space id labels).Follows Unbound := by
  intro r
  rw [state_of_silent (silent_registerEnumType space id labels r)]
  split <;> exact ⟨rfl, rfl, rfl⟩

theorem unbound_toggle (tag : Tag) (enable : Bool) :
    (toggle tag enable : Op (Registry LocalHost) Bool).Follows Unbound :=
  follows_toggle (fun _ _ _ => ⟨rfl, rfl, rfl⟩) (fun _ _ _ => ⟨rfl, rfl, rfl⟩) tag enable

theorem unbound_assignPlaceholders : assignPlaceholders.Follows Unbound := by
  intro r
  rw [state_of_silent (silent_assignPlaceholders r)]
  exact ⟨rfl, rfl, rfl⟩

/-- The identifier of an event is found in the place that comes into the table. -/
theorem identIndex?_registerEvent (name : String) (r : Registry LocalHost) :
    (registerEvent name r).state.host.identIndex? name = some (eventIndex name r.host) := by
  rw [state_of_silent (silent_registerEvent name r), eventIndex, eventName_eq]
  cases hn : r.host.identIndex? name with
  | some n => exact (identsWithin_eventIdents name r.host).identIndex? hn
  | none =>
    have hnone : r.host.idents.findIdx? (·.name = name) = none := hn
    simp only [LocalHost.identIndex?, eventIdents, eventName_eq, hnone, Option.getD_none]
    simp [List.findIdx?_append, hnone]

theorem mem_insertEntry {α : Type} {k : String} {a : α} {es : List (String × α)} {e : String × α}
    (he : e ∈ SortedMap.insertEntry k a es) : e = (k, a) ∨ e ∈ es := by
  induction es with
  | nil => exact .inl (List.mem_singleton.mp he)
  | cons d es ih =>
    simp only [SortedMap.insertEntry] at he
    split at he
    · exact (List.mem_cons.mp he).imp id (List.mem_cons_of_mem d)
    · split at he
      · exact List.mem_cons.mp he
      · rcases List.mem_cons.mp he with rfl | he
        · exact .inr List.mem_cons_self
        · exact (ih he).imp id (List.mem_cons_of_mem d)

theorem Tied.registerEvent (h : r.Tied) (name : String) :
    (registerEvent name r).state.Tied := by
  have hkeeps := keeps_registerEvent name r
  have hplace := identIndex?_registerEvent name r
  have hstate := state_of_silent (silent_registerEvent name r)
  generalize (Registry.registerEvent name r).state = r' at hkeeps hplace hstate
  refine ⟨?_, ?_, fun e he => ?_⟩
  · rw [hstate]
    exact h.bindings
  · rw [hstate]
    exact h.queued
  · have he : e ∈ SortedMap.insertEntry name (eventIndex name r.host) r.events.entries := by
      rwa [hstate] at he
    rcases mem_insertEntry he with rfl | he
    · exact hplace
    · exact hkeeps.idents.identIndex? (h.events e he)

/-- What is kept, and tied as it was. -/
def Ties (r r' : Registry LocalHost) : Prop :=
  Keeps r r' ∧ (r.analyzers.Placed → r.Tied → r'.Tied)

instance : IsPreorder (Registry LocalHost) Ties where
  refl r := ⟨refl r, fun _ => id⟩
  trans _ _ _ h h' := ⟨IsTrans.trans (r := Keeps) _ _ _ h.1 h'.1,
    fun hp ht => h'.2 (h.1.leads hp).1 (h.2 hp ht)⟩

theorem ties_of_unbound (hkeeps : Keeps r r') (hun : Unbound r r') : Ties r r' :=
  ⟨hkeeps, fun hp ht => ht.unbound hp hkeeps hun⟩

theorem ties_register (registration : Registration) :
    (register registration : Op (Registry LocalHost) Unit).Follows Ties := by
  intro r
  have hkeeps := keeps_register registration r
  cases registration with
  | parser parser => exact ties_of_unbound hkeeps ⟨rfl, rfl, rfl⟩
  | protocol decl => exact ties_of_unbound hkeeps (unbound_registerProtocol decl r)
  | file decl =>
    refine ties_of_unbound hkeeps ?_
    rw [register, state_of_silent (silent_registerFile decl r)]
    exact unbound_adopted ..
  | packet decl =>
    refine ties_of_unbound hkeeps ?_
    rw [register, state_of_silent (silent_registerPacket decl r)]
    exact unbound_adopted ..
  | event name => exact ⟨hkeeps, fun _ ht => ht.registerEvent name⟩
  | enumType space id labels =>
    exact ties_of_unbound hkeeps (unbound_registerEnumType space id labels r)

theorem ties_run (script : Script) : (run script : Op (Registry LocalHost) Unit).Follows Ties := by
  apply Op.Follows.forM
  intro step _
  cases step with
  | register registration => exact ties_register registration
  | fail fault => exact Op.follows_raise fault

/-- The host finds a name by a tag that a component carries. -/
theorem carries_of_id? {h : LocalHost} {kind : Kind} {name : String} {id : UInt32}
    (hid : h.id? kind name = some id) : h.carries ⟨kind, id⟩ = true := by
  obtain ⟨m, hm, htag, -⟩ := Roster.mem_marks_of_id? (o := Roster.unused h) hid
  exact carries_iff.mpr ⟨m, hm, htag⟩

/-- A task binds nothing but what is tied. -/
def Task.Ties (h : LocalHost) (t : Task) : Prop :=
  (∀ b, t = .bind b → h.carries ⟨.protocol, b.id⟩ = true) ∧
    ∀ e, t = .queue e → ∀ id, .fileTag id ∈ e.args → h.carries ⟨.file, id⟩ = true

theorem ties_stop (h : LocalHost) (fault : Fault) : (Task.stop fault).Ties h := ⟨nofun, nofun⟩

theorem ties_protocolTasks (h : LocalHost) (parsers : List Parser) (p : ProtocolAnalyzer) :
    ∀ t ∈ protocolTasks h parsers p, t.Ties h := by
  apply forall_withParser (ties_stop h)
  intro originator
  refine List.forall_mem_cons.mpr ⟨⟨nofun, nofun⟩, ?_⟩
  apply forall_withParser (ties_stop h)
  intro responder
  refine List.forall_mem_cons.mpr ⟨⟨nofun, nofun⟩, ?_⟩
  apply forall_withId (ties_stop h)
  intro id hid
  refine List.forall_mem_map.mpr fun port _ => ?_
  unfold portTask
  split
  · refine ⟨fun b hb => ?_, nofun⟩
    cases hb
    exact carries_of_id? hid
  · exact ties_stop h _

theorem ties_fileTasks (h : LocalHost) (parsers : List Parser) (p : FileAnalyzer) :
    ∀ t ∈ fileTasks h parsers p, t.Ties h := by
  apply forall_withParser (ties_stop h)
  intro parser
  refine List.forall_mem_cons.mpr ⟨⟨nofun, nofun⟩, ?_⟩
  apply forall_withId (ties_stop h)
  intro id hid
  refine List.forall_mem_map.mpr fun mimeType _ => ⟨nofun, fun e he i hi => ?_⟩
  cases he
  obtain rfl : i = id := by simpa using hi
  exact carries_of_id? hid

theorem ties_packetTasks (h : LocalHost) (parsers : List Parser) (p : PacketAnalyzer) :
    ∀ t ∈ packetTasks parsers p, t.Ties h := by
  apply forall_withParser (ties_stop h)
  intro parser
  exact List.forall_mem_singleton.mpr ⟨nofun, nofun⟩

theorem ties_schedule (h : LocalHost) (parsers : List Parser) (a : Analyzers) :
    ∀ t ∈ schedule h parsers a, t.Ties h := by
  simp only [schedule, List.forall_mem_append, List.forall_mem_flatMap]
  exact ⟨fun p _ => ties_protocolTasks h parsers p, fun p _ => ties_fileTasks h parsers p,
    fun p _ => ties_packetTasks h parsers p⟩

/-- A resolution binds what the host finds, also one that stops at a fault. -/
theorem ties_resolve (parsers : List Parser) : (resolve parsers).Follows Ties := by
  intro r
  refine ⟨keeps_resolve parsers r, fun _ ht => ?_⟩
  obtain ⟨done, rest, hts, hout⟩ := exists_applyAll (schedule r.host parsers r.analyzers) r
  have hties (t : Task) (hmem : t ∈ done) : t.Ties r.host :=
    ties_schedule r.host parsers r.analyzers t (hts ▸ List.mem_append_left rest hmem)
  rw [state_eq_silent, silent_resolve, hout]
  refine ⟨fun b hb => ?_, fun e he id hid => ?_, ht.events⟩
  · rcases List.mem_append.mp hb with hb | hb
    · exact ht.bindings b hb
    · obtain ⟨t, hmem, htask⟩ := List.mem_filterMap.mp hb
      cases t <;> cases htask
      exact (hties _ hmem).1 b rfl
  · rcases List.mem_append.mp he with he | he
    · exact ht.queued e he id hid
    · obtain ⟨t, hmem, htask⟩ := List.mem_filterMap.mp he
      cases t <;> cases htask
      exact (hties _ hmem).2 e rfl id hid

end Registry

namespace LocalHost

/-- What others do to a host: they add no analyzers and take none away, bind nothing to analyzers
that are not there, and leave identifiers in the places in which they are found. -/
structure Spared (h h' : LocalHost) : Prop where
  marks : h'.components.map (·.mark) = h.components.map (·.mark)
  next : h'.next = h.next
  locations : h.scriptLocations ⊆ h'.scriptLocations
  nodup : h.scriptLocations.Nodup → h'.scriptLocations.Nodup
  bindings : ∀ b ∈ h'.portBindings, b ∈ h.portBindings ∨ h.carries ⟨.protocol, b.id⟩ = true
  queued : ∀ e ∈ h'.queuedEvents,
    e ∈ h.queuedEvents ∨ ∀ id, .fileTag id ∈ e.args → h.carries ⟨.file, id⟩ = true
  idents : ∀ name n, h.identIndex? name = some n → h'.identIndex? name = some n

theorem spared_setConstant (name : String) (value : Bool) (h : LocalHost) :
    h.Spared (h.setConstant name value) :=
  ⟨rfl, rfl, fun _ => id, id, fun _ => .inl, fun _ => .inl, fun _ _ => id⟩

theorem identIndex?_congr {h h' : LocalHost}
    (hnames : h'.idents.map (·.name) = h.idents.map (·.name)) :
    h'.identIndex? = h.identIndex? := by
  have hindex (is : List Ident) (qualified : String) :
      is.findIdx? (·.name = qualified) = (is.map (·.name)).findIdx? (· = qualified) := by
    rw [List.findIdx?_map]
    rfl
  funext qualified
  rw [identIndex?, hindex, hnames, ← hindex, identIndex?]

/-- A handler gives a type to an identifier, which keeps its place. -/
theorem spared_defineHandler (name : String) (h : LocalHost) : h.Spared (h.defineHandler name) := by
  unfold defineHandler
  cases h.identIndex? name with
  | none => exact ⟨rfl, rfl, fun _ => id, id, fun _ => .inl, fun _ => .inl, fun _ _ => id⟩
  | some n =>
    have hkept : (h.modifyIdent n ({ · with type := some .event })).identIndex? =
        h.identIndex? := identIndex?_congr (Registry.map_modify_eq fun _ => rfl)
    refine ⟨rfl, rfl, fun _ => id, id, fun _ => .inl, fun _ => .inl, fun name n hn => ?_⟩
    exact (congrFun hkept name).trans hn

end LocalHost

namespace Registry

variable {r : Registry LocalHost} {h : LocalHost}

/-- What others do to the host leaves the roster sound. -/
theorem Ordered.spared (hr : r.Ordered) (hspared : r.host.Spared h) :
    ({ r with host := h } : Registry LocalHost).Ordered where
  placed := hr.placed
  sound hroom := by
    have hmarks : (h.roster r.analyzers.descriptor?).marks = r.roster.marks := hspared.marks
    have hbefore : r.host.Roomy := by
      have hend : (h.roster r.analyzers.descriptor?).Roomy := Roster.roomy_roster.mpr hroom
      have hstart : r.roster.Roomy := fun kind => hmarks ▸ hend kind
      exact Roster.roomy_roster.mp hstart
    have hs := hr.sound hbefore
    change (h.roster r.analyzers.descriptor?).Sound
    refine ⟨?_, hmarks ▸ hs.builtinFirst, fun tag d hd => ?_, hmarks ▸ hs.enrolled,
      hspared.nodup hs.locations⟩
    · rw [hmarks]
      exact (congrArg (Roster.Numbered r.roster.marks) hspared.next).mpr hs.numbered
    · exact (hs.described tag d hd).mono (fun _ hm => hmarks ▸ hm) fun _ hl => hspared.locations hl

/-- It binds nothing to analyzers that are not there. -/
theorem Tied.spared (ht : r.Tied) (hspared : r.host.Spared h) :
    ({ r with host := h } : Registry LocalHost).Tied := by
  have hcarries (tag : Tag) (htag : r.host.carries tag = true) : h.carries tag = true := by
    have hmarks : (h.roster fun _ => none).marks = (r.host.roster fun _ => none).marks :=
      hspared.marks
    rw [carries_iff] at htag ⊢
    rw [hmarks]
    exact htag
  refine ⟨fun b hb => hcarries _ ?_, fun e he id hid => hcarries _ ?_, fun e he => ?_⟩
  · exact (hspared.bindings b hb).elim (ht.bindings b) (fun h => h)
  · exact (hspared.queued e he).elim (fun h => ht.queued e h id hid) (fun h => h id hid)
  · exact hspared.idents _ _ (ht.events e he)

end Registry

namespace Plugin

open Registry (Ties Unbound ties_of_unbound)

variable {p q : Plugin LocalHost} {t : List Trace}

theorem Move.ties (h : Move p t q) : Ties p.registry q.registry := by
  have hkeeps := h.keeps
  cases h with
  | log => exact refl p.registry
  | searchPath dir => exact ties_of_unbound hkeeps ⟨rfl, rfl, rfl⟩
  | register registration => exact Registry.ties_register registration p.registry
  | load access path => exact registry_loadOnce Registry.ties_run access path p
  | placeholders =>
    exact ties_of_unbound hkeeps (Registry.unbound_assignPlaceholders p.registry)
  | start =>
    refine ties_of_unbound hkeeps ?_
    change Unbound p.registry (startRuntime p.registry).state
    rw [startRuntime_apply]
    split <;> exact ⟨rfl, rfl, rfl⟩
  | stopResolving | resolve => exact Registry.ties_resolve _ p.registry
  | toggle tag enable =>
    exact ties_of_unbound hkeeps (Registry.unbound_toggle tag enable p.registry)
  | stop => exact ties_of_unbound hkeeps ⟨rfl, rfl, rfl⟩

theorem Moves.ties (h : Moves p t q) : Ties p.registry q.registry :=
  h.follows (·.registry) Move.ties

/-- A plugin that calls lead to, while others spare its analyzers and the parser runtime may come to
fail. -/
inductive Lived : Plugin LocalHost → Prop
  | new {settings : Settings} {host : LocalHost} {failures : List RuntimeFailure}
      {p : Plugin LocalHost} :
      host.Shipped → Plugin.new settings host failures = .ok p → Lived p
  | call {p : Plugin LocalHost} (call : Call) : Lived p → Lived (call.leave p)
  | others {p : Plugin LocalHost} {f : LocalHost → LocalHost} :
      p.registry.host.Spared (f p.registry.host) → Lived p →
        Lived ((Turn.changeHost f).op p).state
  | refuse {p : Plugin LocalHost} (failures : List RuntimeFailure) :
      Lived p → Lived ((Turn.refuse failures).op p).state

theorem Reached.lived (hp : p.Reached) : p.Lived := by
  induction hp with
  | new hshipped hnew => exact .new hshipped hnew
  | call call _ ih => exact ih.call call

theorem Lived.ordered (hp : p.Lived) : p.registry.Ordered := by
  induction hp with
  | new hshipped hnew => exact ordered_new hshipped hnew
  | call call _ ih => exact ih.leads (call.leads _)
  | others hspared _ ih => exact ih.spared hspared
  | refuse failures _ ih => exact ih.leads (Registry.leads_of_eq rfl rfl)

theorem bound_shipped {host : LocalHost} (h : host.Shipped) :
    host.portBindings = [] ∧ host.queuedEvents = [] := by
  induction h with
  | new => exact ⟨rfl, rfl⟩
  | addBuiltin name entry _ ih => cases entry <;> exact ih
  | setConstant name value _ ih => exact ih

/-- All that scripts and calls lead to is tied. -/
theorem Lived.tied (hp : p.Lived) : p.registry.Tied := by
  induction hp with
  | new hshipped hnew =>
    have hbound := bound_shipped hshipped
    rw [(registry_of_new hnew).1]
    refine ⟨?_, ?_, nofun⟩ <;> simp [Registry.new, hbound]
  | @call p call hp ih =>
    have hties := (call.moves p).ties
    rw [call.state_op] at hties
    exact hties.2 hp.ordered.placed ih
  | others hspared _ ih => exact ih.spared hspared
  | refuse failures _ ih => exact ⟨ih.bindings, ih.queued, ih.events⟩

end Plugin

end TrafficAnalyzers
