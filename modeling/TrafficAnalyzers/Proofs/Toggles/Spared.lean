import TrafficAnalyzers.Proofs.Interchange.References
import TrafficAnalyzers.Proofs.Toggles.Answers
/-!
Plugins on a host that cannot turn off file analyzers. Main statement: whatever is registered,
resolved and toggled, all file analyzers stay on, none is recorded to replace another, and a toggle of
one answers no and does nothing.
-/
namespace TrafficAnalyzers

/-- What is switched is a component that carries the tag, and it changes in nothing else. -/
theorem LocalHost.mem_enableIn {tag : Tag} {enabled : Bool} {cs : List ComponentRecord}
    {c : ComponentRecord} (hc : c ∈ enableIn tag enabled cs) :
    c ∈ cs ∨ ∃ c' ∈ cs, c'.tag = some tag ∧ c = { c' with enabled } := by
  induction cs with
  | nil => exact .inl hc
  | cons d cs ih =>
    rw [enableIn] at hc
    split at hc
    next htag =>
      rcases List.mem_cons.mp hc with rfl | hc
      · exact .inr ⟨d, List.mem_cons_self, htag, rfl⟩
      · exact .inl (List.mem_cons_of_mem d hc)
    next =>
      rcases List.mem_cons.mp hc with rfl | hc
      · exact .inl List.mem_cons_self
      · refine (ih hc).imp (List.mem_cons_of_mem d) ?_
        rintro ⟨c', hc', h⟩
        exact ⟨c', List.mem_cons_of_mem d hc', h⟩

namespace Roster

/-- The host cannot turn off file analyzers, and none of them is off or recorded to replace one. -/
structure Spared (o : Roster) : Prop where
  unable : o.fileToggle = false
  tagged : ∀ c ∈ o.components, ∀ tag, c.tag = some tag → tag.kind = c.component.entry.kind
  enabled : ∀ c ∈ o.components, c.component.entry.kind = .file → c.enabled = true
  unreplaced : ∀ id d, o.descriptor? ⟨.file, id⟩ = some d → d.replaces = none

variable {o : Roster}

/-- A tag of another kind is not that of a file analyzer. -/
theorem Spared.switch (h : o.Spared) (tag : Tag) (hkind : tag.kind ≠ .file) (enabled : Bool) :
    (o.switch tag enabled).Spared := by
  refine ⟨h.unable, fun c hc t ht => ?_, fun c hc hfile => ?_, h.unreplaced⟩
  · rcases LocalHost.mem_enableIn hc with hc | ⟨c', hc', -, rfl⟩
    · exact h.tagged c hc t ht
    · exact h.tagged c' hc' t ht
  · rcases LocalHost.mem_enableIn hc with hc | ⟨c', hc', htag, rfl⟩
    · exact h.enabled c hc hfile
    · exact absurd ((h.tagged c' hc' tag htag).trans hfile) hkind

theorem Spared.supersede (h : o.Spared) {kind : Kind} {replaces : Option UInt32}
    (hnone : kind = .file → replaces = none) : (o.supersede kind replaces).Spared := by
  cases replaces with
  | none => exact h
  | some id => exact h.switch ⟨kind, id⟩ (fun hfile => nomatch hnone hfile) false

theorem Spared.enrol (h : o.Spared) (entry : Entry) {replaces : Option UInt32}
    (hnone : entry.kind = .file → replaces = none) (name replacedName : String) :
    (o.enrol entry name replaces replacedName).Spared := by
  refine ⟨h.unable, fun c hc tag htag => ?_, fun c hc hfile => ?_, fun id d hd => ?_⟩
  · rcases List.mem_append.mp hc with hc | hc
    · exact h.tagged c hc tag htag
    · obtain rfl := List.mem_singleton.mp hc
      rw [← Option.some.inj htag]
  · rcases List.mem_append.mp hc with hc | hc
    · exact h.enabled c hc hfile
    · rw [List.mem_singleton.mp hc]
  · simp only [Roster.enrol] at hd
    split at hd
    · exact h.unreplaced id d hd
    · rw [Function.update_apply] at hd
      split at hd
      next htag =>
        rw [← Option.some.inj hd]
        exact hnone (congrArg Tag.kind htag).symm
      next => exact h.unreplaced id d hd

/-- A newcomer is of another kind or replaces nothing. -/
theorem Spared.enlist (h : o.Spared) (entry : Entry) {replaces : Option UInt32}
    (hnone : entry.kind = .file → replaces = none) (name replacedName : String) :
    ((o.supersede entry.kind replaces).enrol entry name replaces replacedName).Spared :=
  (h.supersede hnone).enrol entry hnone name replacedName

theorem Spared.toggle (h : o.Spared) (tag : Tag) (hkind : tag.kind ≠ .file) (enable : Bool) :
    (o.toggle tag enable).Spared := by
  unfold Roster.toggle
  split
  · exact h
  · split
    · exact h.switch tag hkind enable
    next id _ => exact (h.switch tag hkind enable).switch ⟨tag.kind, id⟩ hkind (!enable)

theorem Spared.replacedFile? (h : o.Spared) (name : String) : o.replacedFile? name = none := by
  rw [Roster.replacedFile?, h.unable]
  rfl

end Roster

namespace Registry

/-- Records stand in their places, and file analyzers are spared. -/
structure SparesFiles (r : Registry LocalHost) : Prop where
  placed : r.analyzers.Placed
  spared : r.roster.Spared

/-- File analyzers that were spared are spared still. -/
def Sparing (r r' : Registry LocalHost) : Prop := r.SparesFiles → r'.SparesFiles

instance : IsPreorder (Registry LocalHost) Sparing where
  refl _ := id
  trans _ _ _ h h' := h' ∘ h

variable {r r' : Registry LocalHost}

theorem sparing_of_roster (hleads : Leads r r') (hroster : r'.roster = r.roster) : Sparing r r' :=
  fun h => ⟨(hleads h.placed).1, hroster ▸ h.spared⟩

theorem sparing_registerProtocol (decl : ProtocolDecl) :
    (registerProtocol decl).Follows Sparing := by
  intro r h
  refine ⟨placed_registerProtocol decl h.placed, ?_⟩
  rw [roster_registerProtocol]
  split
  · exact h.spared
  next entry hentry =>
    have hkind := kind_of_entryFor? hentry
    have hnone : entry.kind = .file → r.roster.replaced? .protocol decl.replaces = none := by
      rw [hkind]
      nofun
    exact hkind ▸ h.spared.enlist entry hnone decl.name decl.replaces

theorem sparing_registerFile (decl : FileDecl) : (registerFile decl).Follows Sparing := by
  intro r h
  refine ⟨placed_registerFile decl h.placed, ?_⟩
  rw [roster_registerFile, h.spared.replacedFile?]
  exact h.spared.enlist .file (fun _ => rfl) decl.name decl.replaces

theorem sparing_registerPacket (decl : PacketDecl) : (registerPacket decl).Follows Sparing := by
  intro r h
  refine ⟨placed_registerPacket decl h.placed, ?_⟩
  rw [roster_registerPacket]
  exact h.spared.enrol .packet nofun decl.name ""

theorem roster_registerEvent (name : String) (r : Registry LocalHost) :
    (registerEvent name r).state.roster = r.roster := by
  rw [state_of_silent (silent_registerEvent name r)]
  rfl

theorem roster_registerEnumType (space id : String) (labels : List (String × Int64))
    (r : Registry LocalHost) : (registerEnumType space id labels r).state.roster = r.roster := by
  rw [state_of_silent (silent_registerEnumType space id labels r)]
  split <;> rfl

theorem sparing_register (registration : Registration) :
    (register registration : Op (Registry LocalHost) Unit).Follows Sparing := by
  cases registration with
  | parser parser => exact fun r => sparing_of_roster (follows_registerParser parser r) rfl
  | protocol decl => exact sparing_registerProtocol decl
  | file decl => exact sparing_registerFile decl
  | packet decl => exact sparing_registerPacket decl
  | event name =>
    exact fun r => sparing_of_roster (follows_registerEvent name r) (roster_registerEvent name r)
  | enumType space id labels =>
    exact fun r => sparing_of_roster (follows_registerEnumType space id labels r)
      (roster_registerEnumType space id labels r)

theorem sparing_run (script : Script) :
    (run script : Op (Registry LocalHost) Unit).Follows Sparing := by
  apply Op.Follows.forM
  intro step _
  cases step with
  | register registration => exact sparing_register registration
  | fail fault => exact Op.follows_raise fault

theorem sparing_assignPlaceholders :
    (assignPlaceholders : Op (Registry LocalHost) Unit).Follows Sparing := by
  intro r
  refine sparing_of_roster (follows_assignPlaceholders r) ?_
  rw [state_of_silent (silent_assignPlaceholders r)]
  rfl

theorem sparing_resolve (parsers : List Parser) : (resolve parsers).Follows Sparing := by
  intro r h
  refine ⟨(follows_resolve parsers r h.placed).1, ?_⟩
  obtain ⟨done, hrenews, hstate⟩ := state_resolve parsers r
  rw [hstate, roster_applyAll h.placed (hrenews h.placed)]
  exact h.spared

theorem SparesFiles.canToggle (h : r.SparesFiles) : r.host.canToggle .file = false :=
  h.spared.unable

theorem sparing_toggle (tag : Tag) (enable : Bool) :
    (toggle tag enable : Op (Registry LocalHost) Bool).Follows Sparing := by
  intro r h
  obtain ⟨kind, id⟩ := tag
  cases kind with
  | protocol =>
    have hleads := follows_toggle follows_setProtocolEnabled follows_setFileEnabled
      ⟨.protocol, id⟩ enable r
    refine ⟨(hleads h.placed).1, ?_⟩
    change (toggleProtocol id enable r).state.roster.Spared
    rw [roster_toggleProtocol]
    exact h.spared.toggle ⟨.protocol, id⟩ nofun enable
  | file =>
    have hstill : (toggle ⟨.file, id⟩ enable r).silent = (.ok false, r) :=
      silent_toggle_unable h.canToggle enable
    rw [state_of_silent hstill]
    exact h
  | packet =>
    have hstill : (toggle ⟨.packet, id⟩ enable r).silent = (.ok false, r) :=
      silent_toggle_unable rfl enable
    rw [state_of_silent hstill]
    exact h

/-- A value of the type of file analyzers names one of them, or nothing. -/
theorem silent_toggleValue_unable (hunable : r.host.canToggle .file = false) {value : EnumValue}
    (htype : value.typeName = LocalHost.typeName .file) (enable : Bool) :
    (toggleValue value enable r).silent = (.ok false, r) := by
  let tag : Tag := ⟨.file, value.value⟩
  have hvalue : value = LocalHost.enumValue tag := by rw [LocalHost.enumValue, ← htype]
  have hstill : (toggle tag enable r).silent = (.ok false, r) := silent_toggle_unable hunable enable
  rw [toggleValue_apply, hvalue, tagOfValue?_enumValue]
  split
  · exact hstill
  · rfl

end Registry

namespace Plugin

open Registry (Sparing SparesFiles)

/-- Every move spares the file analyzers. -/
theorem Move.sparing {p q : Plugin LocalHost} {t : List Trace} (h : Move p t q) :
    Sparing p.registry q.registry := by
  cases h with
  | log => exact id
  | searchPath dir => exact Registry.sparing_of_roster (Registry.leads_of_eq rfl rfl) rfl
  | register registration => exact Registry.sparing_register registration p.registry
  | load access path => exact registry_loadOnce Registry.sparing_run access path p
  | placeholders => exact Registry.sparing_assignPlaceholders p.registry
  | start =>
    change Sparing p.registry (startRuntime p.registry).state
    rw [startRuntime_apply]
    split <;> exact Registry.sparing_of_roster (Registry.leads_of_eq rfl rfl) rfl
  | stopResolving | resolve => exact Registry.sparing_resolve _ p.registry
  | toggle tag enable => exact Registry.sparing_toggle tag enable p.registry
  | stop => exact Registry.sparing_of_roster (Registry.leads_of_eq rfl rfl) rfl

theorem sparesFiles_after {p : Plugin LocalHost} (hp : p.registry.SparesFiles)
    (calls : List Call) : (p.after calls).registry.SparesFiles := by
  induction calls generalizing p with
  | nil => exact hp
  | cons call calls ih =>
    have hmoves : Moves p (call.op p).trace (call.leave p) := call.state_op p ▸ call.moves p
    exact ih (hmoves.follows (·.registry) Move.sparing hp)

/-- Every file analyzer is on, replaces no other and is reported under its own number, and no toggle
by a tag or a script value of file analyzers does anything. -/
structure LeavesFilesOn (p : Plugin LocalHost) : Prop where
  enabled : ∀ c ∈ p.registry.host.components, c.component.entry.kind = .file → c.enabled = true
  unreplaced : ∀ id a, p.registry.analyzers.file.get? id = some a → a.replaces = none
  reported : ∀ id, p.registry.analyzers.reportedId ⟨.file, id⟩ = id
  toggle : ∀ id enable, (toggle ⟨.file, id⟩ enable p).silent = (.ok false, p)
  toggleValue : ∀ value, value.typeName = LocalHost.typeName .file → ∀ enable,
    (toggleValue value enable p).silent = (.ok false, p)

theorem leavesFilesOn {p : Plugin LocalHost} (hp : p.registry.SparesFiles) : p.LeavesFilesOn where
  enabled := hp.spared.enabled
  unreplaced id a ha := hp.spared.unreplaced id a.descriptor (congrArg (Option.map _) ha)
  reported id := by
    have hnone : p.registry.analyzers.replacedId? ⟨.file, id⟩ = none := by
      rw [replacedId?_eq, Option.bind_eq_none_iff]
      exact hp.spared.unreplaced id
    rw [Analyzers.reportedId, hnone]
    rfl
  toggle id enable := by
    have hstill : (Registry.toggle ⟨.file, id⟩ enable p.registry).silent =
        (.ok false, p.registry) := Registry.silent_toggle_unable hp.canToggle enable
    rw [Plugin.toggle, silent_onRegistry, hstill]
  toggleValue value htype enable := by
    rw [Plugin.toggleValue, silent_onRegistry,
      Registry.silent_toggleValue_unable hp.canToggle htype]

end Plugin

/-- The analyzers that a host ships with carry tags of their kinds. -/
theorem LocalHost.Shipped.tagged {h : LocalHost} (hs : h.Shipped) :
    ∀ c ∈ h.components, ∀ tag, c.tag = some tag → tag.kind = c.component.entry.kind := by
  induction hs with
  | new => nofun
  | addBuiltin name entry _ ih =>
    intro c hc tag htag
    cases entry <;> rcases List.mem_append.mp hc with hc | hc <;>
      first
      | exact ih c hc tag htag
      | rw [List.mem_singleton.mp hc] at htag ⊢
        rw [← Option.some.inj htag]
        rfl
  | setConstant name value _ ih => exact ih

namespace Plugin

/-- On a host that cannot turn off file analyzers none is ever off, replaced or toggled. -/
theorem file_analyzers_stay_on {settings : Settings} {host : LocalHost}
    {failures : List RuntimeFailure} {p : Plugin LocalHost} (hs : host.Shipped)
    (hunable : host.fileToggle = false) (hp : Plugin.new settings host failures = .ok p)
    (calls : List Call) : (p.after calls).LeavesFilesOn := by
  refine leavesFilesOn (sparesFiles_after ?_ calls)
  obtain ⟨hregistry, -⟩ := registry_of_new hp
  rw [hregistry]
  refine ⟨Analyzers.placed_empty, hunable, hs.tagged, fun c hc _ => enabled_of_shipped hs c hc, ?_⟩
  intro id d hd
  have hempty : Analyzers.empty.descriptor? ⟨.file, id⟩ = some d := hd
  rw [Analyzers.descriptor?_empty] at hempty
  contradiction

/-- Registrations of all kinds, of which two name an analyzer to replace, and toggles of them. -/
def offswitches : List Call :=
  motley.map .register ++ [.register (.protocol ⟨"Q", .tcp, [], "", "", "P"⟩),
    .toggle ⟨.file, 1⟩ false, .toggle ⟨.file, 2⟩ false, .afterScripts,
    .toggleValue (LocalHost.enumValue ⟨.file, 2⟩) false, .toggle ⟨.protocol, 2⟩ false, .finish]

/-- Of all analyzers only a protocol analyzer is off in the end. -/
theorem offswitches_leave_files_on :
    let p := (bare unswitchable).after offswitches
    p.phase = .done ∧ p.LeavesFilesOn ∧
      p.registry.host.components.map (fun c => (c.component, c.enabled)) =
        [(⟨"Old", .file⟩, true), (⟨"New", .file⟩, true), (⟨"P", .tcp⟩, true),
          (⟨"K", .packet⟩, true), (⟨"Q", .tcp⟩, false)] := by
  intro p
  refine ⟨by decide +kernel, ?_, by decide +kernel⟩
  exact file_analyzers_stay_on shipped_unswitchable rfl
    (show Plugin.new bareSettings unswitchable [] = .ok (bare unswitchable) from rfl) offswitches

end Plugin

end TrafficAnalyzers
