import Mathlib.Data.String.Basic
import TrafficAnalyzers.Proofs.Ascending
import TrafficAnalyzers.Proofs.Interchange.Resolution
/-!
Events and the identifiers that the host keeps for them. Main statement: whatever becomes of a plugin
and of the host's identifiers, every event in the table stands with the first identifier of its name,
which is exported, and placeholders come to exactly those of them that have no type.
-/
namespace TrafficAnalyzers

namespace LocalHost

/-- The host keeps an event: its identifier is the first of its name and exported, and the event has
its handler. -/
structure Serves (h : LocalHost) (name : String) (n : Nat) : Prop where
  first : h.identIndex? name = some n
  exported : ∃ i, h.idents[n]? = some i ∧ i.name = name ∧ i.exported = true
  handled : name ∈ h.eventHandlers.keys

variable {h h' : LocalHost} {name : String} {n : Nat}

theorem Serves.within (hs : h.Serves name n) (hidents : IdentsWithin h.idents h'.idents)
    (hhandlers : ∀ name ∈ h.eventHandlers.keys, name ∈ h'.eventHandlers.keys) :
    h'.Serves name n := by
  obtain ⟨i, hi, hname, hexported⟩ := hs.exported
  obtain ⟨j, hj, hij⟩ := hidents n i hi
  exact ⟨hidents.identIndex? hs.first, ⟨j, hj, hij.name.trans hname, hij.exported hexported⟩,
    hhandlers name hs.handled⟩

/-- A type that an identifier is given is no matter. -/
theorem Serves.retyped (hs : h.Serves name n) (m : Nat) (type : IdentType) :
    (Host.setIdentType m type h).Serves name n := by
  obtain ⟨i, hi, hname, hexported⟩ := hs.exported
  refine ⟨?_, ?_, hs.handled⟩
  · have hnames : (Host.setIdentType m type h).idents.map (·.name) = h.idents.map (·.name) :=
      Registry.map_modify_eq fun _ => rfl
    rw [identIndex?_congr hnames, hs.first]
  · change ∃ i, (h.idents.modify m _)[n]? = some i ∧ _
    rw [List.getElem?_modify, hi]
    by_cases hm : m = n
    · exact ⟨{ i with type := some type }, by simp [hm], hname, hexported⟩
    · exact ⟨i, by simp [hm], hname, hexported⟩

end LocalHost

namespace Registry

variable {r r' : Registry LocalHost} {name : String} {n : Nat}

/-- All events of the table are kept by the host. -/
structure Grounded (r : Registry LocalHost) : Prop where
  served : ∀ e ∈ r.events.entries, r.host.Serves e.1 e.2
  events : r.events.Ascending
  handlers : r.host.eventHandlers.Ascending

/-- No event comes in. -/
structure Eventless (r r' : Registry LocalHost) : Prop where
  events : r'.events = r.events
  handlers : r'.host.eventHandlers = r.host.eventHandlers

instance : IsPreorder (Registry LocalHost) Eventless where
  refl _ := ⟨rfl, rfl⟩
  trans _ _ _ h h' := ⟨h'.events.trans h.events, h'.handlers.trans h.handlers⟩

theorem Grounded.eventless (hr : r.Grounded) (hidents : IdentsWithin r.host.idents r'.host.idents)
    (h : Eventless r r') : r'.Grounded where
  served e he := (hr.served e (h.events ▸ he)).within hidents fun _ => h.handlers ▸ id
  events := h.events ▸ hr.events
  handlers := h.handlers ▸ hr.handlers

theorem eventless_adopted (entry : Entry) (name : String) (replaces : Option UInt32)
    (put : UInt32 → Analyzers → Analyzers) (r : Registry LocalHost) :
    Eventless r (r.adopted entry name replaces put).2 := by
  unfold adopted
  split <;> exact ⟨rfl, LocalHost.eventHandlers_adopt ..⟩

/-- Only the registration of an event brings one in. -/
theorem eventless_register {x : Registration} (hx : x.event? = none) :
    (register x : Op (Registry LocalHost) Unit).Follows Eventless := by
  intro r
  cases x with
  | parser parser => exact ⟨rfl, rfl⟩
  | protocol decl =>
    cases hentry : entryFor? decl.transport with
    | none =>
      rw [register, state_of_silent (silent_registerProtocol_of_none hentry r)]
      exact refl r
    | some entry =>
      rw [register, state_of_silent (silent_registerProtocol hentry r)]
      exact eventless_adopted ..
  | file decl =>
    rw [register, state_of_silent (silent_registerFile decl r)]
    exact eventless_adopted ..
  | packet decl =>
    rw [register, state_of_silent (silent_registerPacket decl r)]
    exact eventless_adopted ..
  | event name => exact absurd hx (Option.some_ne_none name)
  | enumType space id labels =>
    rw [register, state_of_silent (silent_registerEnumType space id labels r)]
    split <;> exact ⟨rfl, rfl⟩

theorem eventless_toggle (tag : Tag) (enable : Bool) :
    (toggle tag enable : Op (Registry LocalHost) Bool).Follows Eventless :=
  follows_toggle (fun _ _ _ => ⟨rfl, rfl⟩) (fun _ _ _ => ⟨rfl, rfl⟩) tag enable

theorem eventless_resolve (parsers : List Parser) : (resolve parsers).Follows Eventless := by
  intro r
  obtain ⟨done, -, hstate⟩ := state_resolve parsers r
  rw [hstate]
  exact ⟨rfl, rfl⟩

theorem eventless_startRuntime : Plugin.startRuntime.Follows Eventless := by
  intro r
  rw [Plugin.startRuntime_apply]
  split <;> exact ⟨rfl, rfl⟩

theorem eventless_assignPlaceholders : assignPlaceholders.Follows Eventless := by
  intro r
  rw [state_of_silent (silent_assignPlaceholders r)]
  exact ⟨rfl, rfl⟩

theorem exported_eventIdents {h : LocalHost} {i : Ident}
    (hi : (eventIdents name h)[eventIndex name h]? = some i) : i.exported = true := by
  rw [eventIdents, eventIndex] at hi
  cases hn : h.identIndex? (eventName name) with
  | none =>
    simp only [hn, Option.getD_none, List.getElem?_concat_length, Option.some.injEq] at hi
    rw [← hi]
  | some n =>
    simp only [hn, Option.getD_some, List.getElem?_modify_eq, Option.map_eq_map,
      Option.map_eq_some_iff] at hi
    obtain ⟨j, -, rfl⟩ := hi
    rfl

/-- An event that is registered is kept. -/
theorem serves_registerEvent (name : String) (r : Registry LocalHost) :
    (registerEvent name r).state.host.Serves name (eventIndex name r.host) := by
  have hfirst := identIndex?_registerEvent name r
  obtain ⟨i, hi, hname⟩ := LocalHost.getElem?_of_identIndex? hfirst
  refine ⟨hfirst, ⟨i, hi, hname, ?_⟩, ?_⟩
  · rw [state_of_silent (silent_registerEvent name r)] at hi
    exact exported_eventIdents hi
  · rw [state_of_silent (silent_registerEvent name r)]
    exact (SortedMap.mem_keys_insert ()).mpr (.inl rfl)

theorem Grounded.registerEvent (hr : r.Grounded) (name : String) :
    (registerEvent name r).state.Grounded := by
  have hkeeps := keeps_registerEvent name r
  have hserves := serves_registerEvent name r
  have hstate := state_of_silent (silent_registerEvent name r)
  generalize (Registry.registerEvent name r).state = r' at hkeeps hserves hstate
  refine ⟨fun e he => ?_, ?_, ?_⟩
  · have he : e ∈ SortedMap.insertEntry name (eventIndex name r.host) r.events.entries := by
      rwa [hstate] at he
    rcases mem_insertEntry he with rfl | he
    · exact hserves
    · exact (hr.served e he).within hkeeps.idents hkeeps.handlers
  · rw [hstate]
    exact hr.events.insert _ _
  · rw [hstate]
    exact hr.handlers.insert _ _

/-- An event that is in the table changes nothing when it is registered again. -/
theorem Grounded.registerEvent_eq_self (hr : r.Grounded) (he : (name, n) ∈ r.events.entries) :
    (Registry.registerEvent name r).state = r := by
  obtain ⟨hfirst, ⟨i, hi, -, hexported⟩, hhandled⟩ := hr.served _ he
  have hidents : eventIdents name r.host = r.host.idents := by
    have hsame : r.host.idents.modify n ({ · with exported := true }) = r.host.idents.modify n id :=
      modify_congr fun j hj => by
        obtain rfl := Option.some.inj (hi.symm.trans hj)
        rw [← hexported, id]
    simp only [eventIdents, eventName_eq, hfirst, hsame, List.modify_id]
  have hindex : eventIndex name r.host = n := by
    rw [eventIndex, eventName_eq, hfirst, Option.getD_some]
  obtain ⟨⟨_, ⟨⟩⟩, hmem, rfl⟩ := List.mem_map.mp hhandled
  rw [state_of_silent (silent_registerEvent _ r), hidents, hindex, hr.events.insert_eq_self he,
    hr.handlers.insert_eq_self hmem]

/-- What is kept, with all events kept by the host if they were. -/
def Grounds (r r' : Registry LocalHost) : Prop := Keeps r r' ∧ (r.Grounded → r'.Grounded)

instance : IsPreorder (Registry LocalHost) Grounds where
  refl r := ⟨refl r, id⟩
  trans _ _ _ h h' := ⟨IsTrans.trans (r := Keeps) _ _ _ h.1 h'.1, h'.2 ∘ h.2⟩

theorem grounds_of_eventless (hkeeps : Keeps r r') (h : Eventless r r') : Grounds r r' :=
  ⟨hkeeps, fun hr => hr.eventless hkeeps.idents h⟩

theorem grounds_register (x : Registration) :
    (register x : Op (Registry LocalHost) Unit).Follows Grounds := by
  intro r
  have hkeeps := keeps_register x r
  cases hx : x.event? with
  | none => exact grounds_of_eventless hkeeps (eventless_register hx r)
  | some name =>
    cases x with
    | event => exact ⟨hkeeps, fun hr => hr.registerEvent _⟩
    | parser | protocol | file | packet | enumType =>
      exact absurd hx.symm (Option.some_ne_none name)

theorem grounds_run (script : Script) :
    (run script : Op (Registry LocalHost) Unit).Follows Grounds := by
  apply Op.Follows.forM
  intro step _
  cases step with
  | register registration => exact grounds_register registration
  | fail fault => exact Op.follows_raise fault

/-- A placeholder comes to an identifier of an event unless that has a type. -/
theorem getElem?_filled (events : List (String × Nat)) (is : List Ident) (n : Nat) :
    (events.foldl (fun is e => is.modify e.2 Ident.filled) is)[n]? =
      is[n]?.map fun i => if n ∈ events.map (·.2) then i.filled else i := by
  induction events generalizing is with
  | nil => simp
  | cons e events ih =>
    rw [List.foldl_cons, ih, List.getElem?_modify]
    cases is[n]? with
    | none => simp
    | some i =>
      rw [Option.map_eq_map, Option.map_some, Option.map_some, Option.map_some]
      by_cases he : e.2 = n
      · have hn : n ∈ (e :: events).map (·.2) := List.mem_cons.mpr (.inl he.symm)
        simp only [if_pos he, if_pos hn, filled_filled, ite_self]
      · have hn : n ∈ (e :: events).map (·.2) ↔ n ∈ events.map (·.2) :=
          List.mem_cons.trans (or_iff_right (Ne.symm he))
        simp only [if_neg he, hn]

theorem Grounded.requested (hr : r.Grounded) {h : LocalHost}
    (hserves : ∀ name n, r.host.Serves name n → h.Serves name n)
    (hhandlers : h.eventHandlers = r.host.eventHandlers) :
    ({ r with host := h } : Registry LocalHost).Grounded where
  served e he := hserves _ _ (hr.served e he)
  events := hr.events
  handlers := hhandlers ▸ hr.handlers

end Registry

/-- What others may ask of a host for its identifiers. -/
inductive IdentRequest where
  | install (name module : String) (exported : Bool)
  | exportIdent (ident : Nat)
  | setType (ident : Nat) (type : IdentType)
  | defineHandler (qualified : String)

namespace IdentRequest

def change : IdentRequest → LocalHost → LocalHost
  | install name module exported, h => (Host.installIdent name module exported h).2
  | exportIdent n, h => Host.exportIdent n h
  | setType n type, h => Host.setIdentType n type h
  | defineHandler qualified, h => h.defineHandler qualified

theorem eventHandlers_change (request : IdentRequest) (h : LocalHost) :
    (request.change h).eventHandlers = h.eventHandlers := by
  cases request with
  | install | exportIdent | setType => rfl
  | defineHandler qualified =>
    rw [change, LocalHost.defineHandler]
    split <;> rfl

/-- No request takes an event from the host. -/
theorem serves_change (request : IdentRequest) {h : LocalHost} {name : String} {n : Nat}
    (hs : h.Serves name n) : (request.change h).Serves name n := by
  cases request with
  | install name module exported => exact hs.within (identsWithin_append _ _) fun _ => id
  | exportIdent m =>
    exact hs.within (identsWithin_modify fun i _ => ⟨rfl, fun _ => rfl, fun _ => id⟩) fun _ => id
  | setType m type => exact hs.retyped m type
  | defineHandler qualified =>
    rw [change, LocalHost.defineHandler]
    split
    · exact hs
    · exact hs.retyped _ .event

end IdentRequest

namespace Plugin

open Registry (Grounds grounds_of_eventless)

theorem Move.grounds {p q : Plugin LocalHost} {t : List Trace} (h : Move p t q) :
    Grounds p.registry q.registry := by
  have hkeeps := h.keeps
  cases h with
  | log => exact refl p.registry
  | searchPath dir => exact grounds_of_eventless hkeeps ⟨rfl, rfl⟩
  | register registration => exact Registry.grounds_register registration p.registry
  | load access path => exact registry_loadOnce Registry.grounds_run access path p
  | placeholders =>
    exact grounds_of_eventless hkeeps (Registry.eventless_assignPlaceholders p.registry)
  | start => exact grounds_of_eventless hkeeps (Registry.eventless_startRuntime p.registry)
  | stopResolving | resolve =>
    exact grounds_of_eventless hkeeps (Registry.eventless_resolve _ p.registry)
  | toggle tag enable =>
    exact grounds_of_eventless hkeeps (Registry.eventless_toggle tag enable p.registry)
  | stop => exact grounds_of_eventless hkeeps ⟨rfl, rfl⟩

theorem Moves.grounds {p q : Plugin LocalHost} {t : List Trace} (h : Moves p t q) :
    Grounds p.registry q.registry := h.follows (·.registry) Move.grounds

end Plugin

/-- A call to the plugin, or what others do: they ask the host for identifiers, or lay down failures of
the parser runtime. -/
inductive Occurrence where
  | call (call : Call)
  | request (request : IdentRequest)
  | refuse (failures : List RuntimeFailure)

def Occurrence.turn : Occurrence → Turn
  | call c => .call c
  | request r => .changeHost r.change
  | refuse failures => .refuse failures

namespace Plugin

theorem grounded_live (os : List Occurrence) {p : Plugin LocalHost} (hp : p.registry.Grounded) :
    (p.live (os.map (·.turn))).registry.Grounded := by
  induction os generalizing p with
  | nil => exact hp
  | cons o os ih =>
    apply ih
    cases o with
    | call call => exact (call.moves p).grounds.2 hp
    | request request =>
      exact hp.requested (fun _ _ => request.serves_change) (request.eventHandlers_change _)
    | refuse failures => exact ⟨hp.served, hp.events, hp.handlers⟩

/-- An event of the table is registered again without effect, or refused. -/
theorem register_again {p : Plugin LocalHost} (hp : p.registry.Grounded) {name : String} {n : Nat}
    (he : (name, n) ∈ p.registry.events.entries) : (register (.event name) p).state = p := by
  by_cases hphase : p.phase = .registering
  · have hleave := leave_register hphase (.event name)
    rw [Registry.register, hp.registerEvent_eq_self he] at hleave
    exact hleave
  · rw [register, Op.bind_of_error (by rw [whileRegistering_of_ne hphase]),
      whileRegistering_of_ne hphase]

/-- Identifiers and events stay as they are. -/
def SameIdents (p q : Plugin LocalHost) : Prop :=
  q.registry.host.idents = p.registry.host.idents ∧ q.registry.events = p.registry.events

instance : IsPreorder (Plugin LocalHost) SameIdents where
  refl _ := ⟨rfl, rfl⟩
  trans _ _ _ h h' := ⟨h'.1.trans h.1, h'.2.trans h.2⟩

theorem sameIdents_startRuntime : (onRegistry startRuntime).Follows SameIdents := by
  intro p
  change _ = p.registry.host.idents ∧ _ = p.registry.events
  rw [onRegistry, Op.within_apply, startRuntime_apply]
  split <;> exact ⟨rfl, rfl⟩

theorem sameIdents_resolve (parsers : List Parser) :
    (onRegistry (Registry.resolve parsers)).Follows SameIdents := by
  intro p
  obtain ⟨done, -, hstate⟩ := Registry.state_resolve parsers p.registry
  change (Registry.resolve parsers p.registry).state.host.idents = _ ∧ _
  rw [onRegistry, Op.within_apply, hstate]
  exact ⟨rfl, rfl⟩

/-- The second phase leaves identifiers alone once placeholders are assigned. -/
theorem idents_afterScripts {p : Plugin LocalHost} (hphase : p.phase = .registering) :
    (afterScripts p).state.registry.host.idents = p.registry.placeholders ∧
      (afterScripts p).state.registry.events = p.registry.events := by
  have hrest : (do
      .debug "Initializing parser runtime"
      onRegistry startRuntime
      let parsers ← .read (·.registry.runtime.parsers)
      onRegistry (Registry.resolve parsers)
      .update fun p => { p with phase := .resolved }
      .debug "Done with post-script initialization" : Op (Plugin LocalHost) Unit).Follows
        SameIdents := by
    refine (Op.follows_debug _).bind fun _ => sameIdents_startRuntime.bind fun _ =>
      (Op.follows_read _).bind fun parsers => (sameIdents_resolve parsers).bind fun _ => ?_
    exact Op.Follows.bind (Op.follows_update fun _ => ⟨rfl, rfl⟩) fun _ => Op.follows_debug _
  rw [state_eq_silent, afterScripts, silent_whileRegistering_bind hphase, Op.silent_debug_bind,
    Op.silent_bind, silent_onRegistry, Registry.silent_assignPlaceholders, Op.proceed_ok]
  exact hrest { p with registry := p.registry.withIdents p.registry.placeholders }

/-- In `q` the identifiers of events have the placeholder for their type where they had none in `p`,
and no other identifier has changed. -/
structure Fills (p q : Plugin LocalHost) : Prop where
  idents : ∀ n, q.registry.host.idents[n]? = p.registry.host.idents[n]?.map fun i =>
    if n ∈ p.registry.events.values ∧ i.type = none then { i with type := some .placeholder } else i
  events : q.registry.events = p.registry.events
  typed : ∀ name n, (name, n) ∈ q.registry.events.entries →
    ∃ i, q.registry.host.idents[n]? = some i ∧ i.type ≠ none

theorem filled_eq (i : Ident) :
    i.filled = if i.type = none then { i with type := some .placeholder } else i := by
  obtain ⟨name, exported, type⟩ := i
  cases type <;> rfl

theorem fills_afterScripts {p : Plugin LocalHost} (hp : p.registry.Grounded)
    (hphase : p.phase = .registering) : Fills p (afterScripts p).state := by
  obtain ⟨hidents, hevents⟩ := idents_afterScripts hphase
  have hget (n : Nat) := Registry.getElem?_filled p.registry.events.entries p.registry.host.idents n
  refine ⟨fun n => ?_, hevents, fun name n he => ?_⟩
  · rw [hidents, Registry.placeholders, hget]
    refine congrArg (Option.map · _) (funext fun i => ?_)
    rw [filled_eq, ite_and]
    rfl
  · rw [hevents] at he
    obtain ⟨i, hi, -⟩ := (hp.served _ he).exported
    have hn : n ∈ p.registry.events.entries.map (·.2) := List.mem_map_of_mem he
    rw [hidents, Registry.placeholders, hget, hi, Option.map_some, if_pos hn]
    exact ⟨_, rfl, by simp [Ident.filled]⟩

end Plugin

/-- Over any host in memory with its handlers in order, whatever calls come and whatever others ask
of the host: every event of the table is kept by the host, and nothing changes when it is registered
again; the second phase fills in placeholders, also if it fails. -/
theorem events_served {settings : Settings} {host : LocalHost} {failures : List RuntimeFailure}
    {p : Plugin LocalHost} (hhost : host.eventHandlers.Ascending)
    (hnew : Plugin.new settings host failures = .ok p) (os : List Occurrence) :
    let q := p.live (os.map (·.turn))
    (∀ name n, (name, n) ∈ q.registry.events.entries →
      q.registry.host.Serves name n ∧ (Registry.registerEvent name q.registry).state = q.registry ∧
        (Plugin.register (.event name) q).state = q) ∧
    (q.phase = .registering → q.Fills (Plugin.afterScripts q).state) := by
  intro q
  have hstart : p.registry.Grounded := by
    rw [(Plugin.registry_of_new hnew).1]
    exact ⟨nofun, SortedMap.ascending_empty, hhost⟩
  have hq : q.registry.Grounded := Plugin.grounded_live os hstart
  refine ⟨fun name n he => ?_, Plugin.fills_afterScripts hq⟩
  exact ⟨hq.served _ he, hq.registerEvent_eq_self he, Plugin.register_again hq he⟩

/-- Two identifiers of one name, a handler, names with and without a module, and a second phase that
the runtime refuses. -/
def eventful : List Occurrence :=
  [.request (.install "x" "A" false), .request (.install "A::x" "B" false),
    .call (.register (.event "A::x")), .request (.defineHandler "A::x"),
    .call (.register (.event "::b::")), .refuse [⟨"E", "busy"⟩], .call .afterScripts,
    .call (.register (.event "c"))]

theorem eventful_served :
    let q := (Plugin.bare (.new 1 "" true)).live (eventful.map (·.turn))
    q.registry.events.entries = [("::b::", 2), ("A::x", 0), ("c", 3)] ∧
      q.registry.host.Serves "A::x" 0 ∧
      (q.registry.host.idents.map (·.type)) = [some .event, none, some .placeholder, none] ∧
      (Plugin.afterScripts q).state.registry.host.idents[3]? =
        some ⟨"c", true, some .placeholder⟩ := by
  have hempty : (LocalHost.new 1 "" true).eventHandlers.Ascending := SortedMap.ascending_empty
  have hnew : Plugin.new Plugin.bareSettings (LocalHost.new 1 "" true) [] =
    .ok (Plugin.bare (.new 1 "" true)) := rfl
  have hserved := events_served hempty hnew eventful
  refine ⟨by decide +kernel, (hserved.1 "A::x" 0 (by decide +kernel)).1, by decide +kernel, ?_⟩
  rw [(hserved.2 (by decide +kernel)).idents]
  decide +kernel

end TrafficAnalyzers
