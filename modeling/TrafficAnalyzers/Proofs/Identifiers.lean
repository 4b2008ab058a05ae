import TrafficAnalyzers.Proofs.EnumTypes
import TrafficAnalyzers.Proofs.Events
/-!
Identifiers of a host that has none before its plugin comes, while scripts define handlers of events.
Main statement: no two have the same name, a place once given is always that of the same name, and an
identifier keeps its export, and its type unless a handler of its name is defined.
-/
namespace TrafficAnalyzers

namespace LocalHost

/-- Among identifiers of different names each is found by its own. -/
theorem identIndex?_of_nodup {h : LocalHost} (hnodup : (h.idents.map (·.name)).Nodup) {n : Nat}
    {i : Ident} (hi : h.idents[n]? = some i) : h.identIndex? i.name = some n := by
  obtain ⟨hn, rfl⟩ := List.getElem?_eq_some_iff.mp hi
  refine List.findIdx?_eq_some_iff_getElem.mpr ⟨hn, decide_eq_true rfl, fun m hm hname => ?_⟩
  have hlt : m < h.idents.length := Nat.lt_trans hm hn
  have hsame : (h.idents.map (·.name))[m]? = (h.idents.map (·.name))[n]? := by
    rw [List.getElem?_map, List.getElem?_map, hi, List.getElem?_eq_getElem hlt]
    exact congrArg some (of_decide_eq_true hname)
  have hlength : m < (h.idents.map (·.name)).length := by rwa [List.length_map]
  exact Nat.ne_of_lt hm ((List.getElem?_inj hlength hnodup).mp hsame)

theorem nodup_names_install {h : LocalHost} (hnodup : (h.idents.map (·.name)).Nodup) {i : Ident}
    (hfresh : h.identIndex? i.name = none) : ((h.idents ++ [i]).map (·.name)).Nodup := by
  rw [List.map_append, List.map_singleton, List.nodup_append]
  refine ⟨hnodup, List.nodup_singleton _, fun name hname name' hname' => ?_⟩
  obtain ⟨j, hj, rfl⟩ := List.mem_map.mp hname
  rw [List.mem_singleton.mp hname']
  exact identIndex?_eq_none_iff.mp hfresh j hj

end LocalHost

namespace Registry

variable {r r' : Registry LocalHost}

/-- No two identifiers have the same name, and every event of the table is found in its place. -/
structure Named (r : Registry LocalHost) : Prop where
  unique : (r.host.idents.map (·.name)).Nodup
  events : ∀ e ∈ r.events.entries, r.host.identIndex? e.1 = some e.2

/-- What was named is named still. -/
def Naming (r r' : Registry LocalHost) : Prop := r.Named → r'.Named

instance : IsPreorder (Registry LocalHost) Naming where
  refl _ := id
  trans _ _ _ h h' := h' ∘ h

theorem naming_of_names (hnames : r'.host.idents.map (·.name) = r.host.idents.map (·.name))
    (hevents : r'.events = r.events) : Naming r r' := fun h =>
  { unique := hnames ▸ h.unique
    events := by rw [hevents, LocalHost.identIndex?_congr hnames]; exact h.events }

theorem Named.install (h : r.Named) {i : Ident} (hfresh : r.host.identIndex? i.name = none) :
    (r.withIdents (r.host.idents ++ [i])).Named :=
  have hwithin : IdentsWithin r.host.idents (r.withIdents (r.host.idents ++ [i])).host.idents :=
    identsWithin_append _ _
  { unique := LocalHost.nodup_names_install h.unique hfresh
    events := fun e he => hwithin.identIndex? (h.events e he) }

theorem nodup_eventIdents (h : r.Named) (name : String) :
    ((eventIdents name r.host).map (·.name)).Nodup := by
  unfold eventIdents
  split
  next n _ =>
    have hnames : (r.host.idents.modify n ({ · with exported := true })).map (·.name) =
        r.host.idents.map (·.name) := map_modify_eq fun _ => rfl
    rw [hnames]
    exact h.unique
  next hfresh => exact LocalHost.nodup_names_install h.unique (i := ⟨_, true, none⟩) hfresh

/-- An event finds the identifier of its name, or the one that is made for it. -/
theorem Named.registerEvent (h : r.Named) (name : String) :
    (registerEvent name r).state.Named := by
  have hfound := identIndex?_registerEvent name r
  have hkeeps := keeps_registerEvent name r
  have hstate := state_of_silent (silent_registerEvent name r)
  generalize (Registry.registerEvent name r).state = r' at hfound hkeeps hstate
  refine ⟨?_, fun e he => ?_⟩
  · rw [hstate]
    exact nodup_eventIdents h name
  · have he : e ∈ SortedMap.insertEntry name (eventIndex name r.host) r.events.entries := by
      rwa [hstate] at he
    rcases mem_insertEntry he with rfl | he
    · exact hfound
    · exact hkeeps.idents.identIndex? (h.events e he)

theorem naming_adopted (entry : Entry) (name : String) (replaces : Option UInt32)
    (put : UInt32 → Analyzers → Analyzers) (r : Registry LocalHost) :
    Naming r (r.adopted entry name replaces put).2 := by
  unfold adopted
  split <;> exact naming_of_names (congrArg _ (LocalHost.idents_adopt ..)) rfl

theorem naming_register (registration : Registration) :
    (register registration : Op (Registry LocalHost) Unit).Follows Naming := by
  intro r
  cases registration with
  | parser parser => exact naming_of_names rfl rfl
  | protocol decl =>
    cases hentry : entryFor? decl.transport with
    | none =>
      rw [register, state_of_silent (silent_registerProtocol_of_none hentry r)]
      exact refl r
    | some entry =>
      rw [register, state_of_silent (silent_registerProtocol hentry r)]
      exact naming_adopted _ _ _ _ r
  | file decl =>
    rw [register, state_of_silent (silent_registerFile decl r)]
    exact naming_adopted _ _ _ _ r
  | packet decl =>
    rw [register, state_of_silent (silent_registerPacket decl r)]
    exact naming_adopted _ _ _ _ r
  | event name => exact fun h => h.registerEvent name
  | enumType space id labels =>
    rw [register, state_of_silent (silent_registerEnumType space id labels r)]
    split
    · exact refl r
    next hfresh => exact fun h => h.install hfresh

theorem naming_run (script : Script) :
    (run script : Op (Registry LocalHost) Unit).Follows Naming := by
  apply Op.Follows.forM
  intro step _
  cases step with
  | register registration => exact naming_register registration
  | fail fault => exact Op.follows_raise fault

theorem naming_assignPlaceholders :
    (assignPlaceholders : Op (Registry LocalHost) Unit).Follows Naming := by
  refine (Op.follows_read _).bind fun events => Op.Follows.forM fun e _ r => ?_
  rw [state_of_silent (silent_assignPlaceholder e.1 e.2 r)]
  exact naming_of_names (map_modify_eq fun _ => rfl) rfl

theorem naming_toggle (tag : Tag) (enable : Bool) :
    (toggle tag enable : Op (Registry LocalHost) Bool).Follows Naming :=
  follows_toggle (fun _ _ _ => naming_of_names rfl rfl) (fun _ _ _ => naming_of_names rfl rfl)
    tag enable

theorem naming_resolve (parsers : List Parser) : (resolve parsers).Follows Naming := by
  intro r
  obtain ⟨done, -, hstate⟩ := state_resolve parsers r
  rw [hstate]
  exact naming_of_names rfl rfl

theorem naming_startRuntime : Plugin.startRuntime.Follows Naming := by
  intro r
  rw [Plugin.startRuntime_apply]
  split <;> exact naming_of_names rfl rfl

end Registry

/-- Every move keeps identifiers of different names. -/
theorem Plugin.Move.naming {p q : Plugin LocalHost} {t : List Trace} (h : Move p t q) :
    Registry.Naming p.registry q.registry := by
  cases h with
  | log => exact id
  | searchPath dir => exact Registry.naming_of_names rfl rfl
  | register registration => exact Registry.naming_register registration p.registry
  | load access path => exact registry_loadOnce Registry.naming_run access path p
  | placeholders => exact Registry.naming_assignPlaceholders p.registry
  | start => exact Registry.naming_startRuntime p.registry
  | stopResolving | resolve => exact Registry.naming_resolve _ p.registry
  | toggle tag enable => exact Registry.naming_toggle tag enable p.registry
  | stop => exact Registry.naming_of_names rfl rfl

/-- What becomes of an identifier, which may come to have a handler. -/
structure Ident.Becomes (handled : Prop) (i j : Ident) : Prop where
  name : j.name = i.name
  exported : i.exported = true → j.exported = true
  type : ¬ handled → ∀ type, i.type = some type → j.type = some type
  event : handled → j.type = some .event

/-- What becomes of a host's identifiers while handlers of some names are defined. -/
structure LocalHost.Retains (handled : String → Prop) (h h' : LocalHost) : Prop where
  found : ∀ name n, h.identIndex? name = some n → h'.identIndex? name = some n
  kept : ∀ (n : Nat) (i : Ident), h.idents[n]? = some i →
    ∃ j, h'.idents[n]? = some j ∧ i.Becomes (handled i.name) j

namespace LocalHost

variable {h h' h'' : LocalHost} {A B : String → Prop}

theorem retains_of_within (hwithin : IdentsWithin h.idents h'.idents) (hA : ∀ name, ¬ A name) :
    Retains A h h' where
  found _ _ := hwithin.identIndex?
  kept n i hi := by
    obtain ⟨j, hj, hij⟩ := hwithin n i hi
    exact ⟨j, hj, hij.name, hij.exported, fun _ => hij.type, fun hname => absurd hname (hA i.name)⟩

/-- The later handler tells the type. -/
theorem Retains.trans (hA : Retains A h h') (hB : Retains B h' h'') :
    Retains (fun name => A name ∨ B name) h h'' where
  found name n hn := hB.found name n (hA.found name n hn)
  kept n i hi := by
    obtain ⟨j, hj, hij⟩ := hA.kept n i hi
    obtain ⟨k, hk, hjk⟩ := hB.kept n j hj
    rw [hij.name] at hjk
    refine ⟨k, hk, hjk.name.trans hij.name, hjk.exported ∘ hij.exported, fun hnot type htype => ?_,
      fun hhandled => ?_⟩
    · obtain ⟨hnotA, hnotB⟩ := not_or.mp hnot
      exact hjk.type hnotB type (hij.type hnotA type htype)
    · by_cases hlater : B i.name
      · exact hjk.event hlater
      · exact hjk.type hlater .event (hij.event (hhandled.resolve_right hlater))

theorem names_defineHandler (name : String) (h : LocalHost) :
    (h.defineHandler name).idents.map (·.name) = h.idents.map (·.name) := by
  rw [defineHandler]
  split
  · rfl
  · exact Registry.map_modify_eq fun _ => rfl

/-- A handler gives the type of events to the one identifier of its name. -/
theorem retains_defineHandler (hnodup : (h.idents.map (·.name)).Nodup) (name : String) :
    Retains (· = name) h (h.defineHandler name) where
  found name' n hn := by rwa [identIndex?_congr (names_defineHandler name h)]
  kept n i hi := by
    have hown := identIndex?_of_nodup hnodup hi
    rw [defineHandler]
    cases hindex : h.identIndex? name with
    | none =>
      refine ⟨i, hi, rfl, id, fun _ _ => id, ?_⟩
      rintro rfl
      rw [hown] at hindex
      contradiction
    | some m =>
      by_cases hm : m = n
      · subst hm
        obtain ⟨j, hj, hname⟩ := getElem?_of_identIndex? hindex
        obtain rfl := Option.some.inj (hj.symm.trans hi)
        refine ⟨{ j with type := some .event }, by simp [modifyIdent, hi], rfl, id, ?_,
          fun _ => rfl⟩
        exact fun hnot => absurd hname hnot
      · refine ⟨i, by simp [modifyIdent, hi, hm], rfl, id, fun _ _ => id, ?_⟩
        rintro rfl
        exact absurd (Option.some.inj (hindex.symm.trans hown)) hm

end LocalHost

namespace Occurrence

/-- All that is asked of the host for its identifiers is what scripts ask by defining handlers. -/
def Scripted : Occurrence → Prop
  | request (.defineHandler _) => True
  | request _ => False
  | call _ => True
  | refuse _ => True

/-- A handler of the name is defined. -/
def Handles (o : Occurrence) (name : String) : Prop := o = .request (.defineHandler name)

end Occurrence

namespace Plugin

open LocalHost (Retains retains_of_within retains_defineHandler)

/-- After one thing that happens. -/
theorem named_turn {p : Plugin LocalHost} (hp : p.registry.Named) {o : Occurrence}
    (ho : o.Scripted) : (o.turn.op p).state.registry.Named ∧
      Retains o.Handles p.registry.host (o.turn.op p).state.registry.host := by
  cases o with
  | call call =>
    have hmoves := call.moves p
    refine ⟨hmoves.follows (·.registry) Move.naming hp, ?_⟩
    exact retains_of_within hmoves.keeps.idents nofun
  | refuse failures => exact ⟨⟨hp.unique, hp.events⟩, retains_of_within (identsWithin_refl _) nofun⟩
  | request request =>
    cases request with
    | install | exportIdent | setType => exact ho.elim
    | defineHandler name =>
      have hnames : (Occurrence.request (.defineHandler name)).Handles = (· = name) := by
        funext name'
        simp [Occurrence.Handles, eq_comm]
      rw [hnames]
      refine ⟨Registry.naming_of_names (LocalHost.names_defineHandler name _) rfl hp, ?_⟩
      exact retains_defineHandler hp.unique name

/-- After all. -/
theorem named_live {os : List Occurrence} (hos : ∀ o ∈ os, o.Scripted) {p : Plugin LocalHost}
    (hp : p.registry.Named) : (p.live (os.map (·.turn))).registry.Named ∧
      Retains (fun name => ∃ o ∈ os, o.Handles name) p.registry.host
        (p.live (os.map (·.turn))).registry.host := by
  induction os generalizing p with
  | nil =>
    have hnone (name : String) : ¬ ∃ o ∈ ([] : List Occurrence), o.Handles name := by simp
    exact ⟨hp, retains_of_within (identsWithin_refl _) hnone⟩
  | cons o os ih =>
    obtain ⟨hnamed, hfirst⟩ := named_turn hp (hos o List.mem_cons_self)
    obtain ⟨hend, hrest⟩ := ih (fun o' ho' => hos o' (List.mem_cons_of_mem o ho')) hnamed
    refine ⟨hend, ?_⟩
    simp only [List.exists_mem_cons_iff]
    exact hfirst.trans hrest

/-- On a host that starts without identifiers, whatever is registered and in whatever order scripts
define handlers: no two identifiers have the same name, every event of the table is found in its
place, and from any moment on, identifiers stay in their places with their names and exports, and
with their types but for handlers. -/
theorem identifiers_unique {settings : Settings} {host : LocalHost} {failures : List RuntimeFailure}
    {p : Plugin LocalHost} (hidents : host.idents = [])
    (hnew : Plugin.new settings host failures = .ok p) {before after : List Occurrence}
    (hbefore : ∀ o ∈ before, o.Scripted) (hafter : ∀ o ∈ after, o.Scripted) :
    let q := p.live (before.map (·.turn))
    let h := q.registry.host
    (h.idents.map (·.name)).Nodup ∧
      (∀ e ∈ q.registry.events.entries, h.identIndex? e.1 = some e.2) ∧
      h.Retains (fun name => ∃ o ∈ after, o.Handles name)
        (q.live (after.map (·.turn))).registry.host := by
  intro q h
  have hstart : p.registry.Named := by
    rw [(registry_of_new hnew).1]
    refine ⟨?_, nofun⟩
    change (host.idents.map (·.name)).Nodup
    rw [hidents]
    exact List.nodup_nil
  have hq : q.registry.Named := (named_live hbefore hstart).1
  exact ⟨hq.unique, hq.events, (named_live hafter hq).2⟩

/-- An event and an enum type of one name, in both orders, and an event that no script handles. -/
def colliding : List Occurrence :=
  [.call (.register (.event "A::K")), .call (.register (.enumType "A" "K" [("L", 1)])),
    .request (.defineHandler "B::M"), .call (.register (.enumType "B" "M" [("L", 1)])),
    .call (.register (.event "B::M")), .call (.register (.event "free"))]

/-- A script handles the first event before the second phase, and the other after it. -/
def handling : List Occurrence :=
  [.request (.defineHandler "A::K"), .call .afterScripts, .request (.defineHandler "B::M")]

def collided : Plugin LocalHost := (bare (.new 1 "" true)).live (colliding.map (·.turn))

def handled : Plugin LocalHost := collided.live (handling.map (·.turn))

/-- The first of each name stays, and the handlers tell the types. -/
theorem colliding_unique :
    collided.registry.host.idents = [⟨"A::K", true, none⟩,
        ⟨"B::M", true, some (.enum "B::M" [("M_L", 1)])⟩, ⟨"free", true, none⟩] ∧
      collided.registry.events.entries = [("A::K", 0), ("B::M", 1), ("free", 2)] ∧
      collided.registry.host.Retains (fun name => ∃ o ∈ handling, o.Handles name)
        handled.registry.host ∧
      handled.registry.host.idents.map (·.type) =
        [some .event, some .event, some .placeholder] := by
  have hidents : (LocalHost.new 1 "" true).idents = [] := rfl
  have hnew : Plugin.new bareSettings (LocalHost.new 1 "" true) [] =
    .ok (bare (.new 1 "" true)) := rfl
  have hbefore : ∀ o ∈ colliding, o.Scripted := by simp [colliding, Occurrence.Scripted]
  have hafter : ∀ o ∈ handling, o.Scripted := by simp [handling, Occurrence.Scripted]
  have hretains := (identifiers_unique hidents hnew hbefore hafter).2.2
  exact ⟨by decide +kernel, by decide +kernel, hretains, by decide +kernel⟩

end Plugin

end TrafficAnalyzers
