import TrafficAnalyzers.Proofs.Numbering
import TrafficAnalyzers.Proofs.Resolution.Finish
import TrafficAnalyzers.Proofs.Toggles
/-!
The tags that a host in memory gives to its components, whatever is done to it. Main statement: as
long as numbers last, the components of a kind have the numbers from one on in the order in which
they got them, each keeps its number, and by its number it is found, named and switched alone.
-/
namespace TrafficAnalyzers

/-- What can be done to a host in memory. -/
inductive HostOperation where
  | addBuiltin (name : String) (entry : Entry)
  | setPluginPath (path : String)
  | setFileToggle (able : Bool)
  | setConstant (name : String) (value : Bool)
  | defineHandler (qualified : String)
  | addSearchPath (dir : String)
  | addComponent (component : Component)
  | initComponent (place : Nat)
  | addScriptLocation (name : String)
  | setProtocolEnabled (id : UInt32) (enabled : Bool)
  | setFileEnabled (id : UInt32) (enabled : Bool)
  | bindPort (id : UInt32) (transport : HostTransport) (port : UInt16)
  | lookupIdent (name module : String)
  | installIdent (name module : String) (exported : Bool)
  | exportIdent (ident : Nat)
  | setIdentType (ident : Nat) (type : IdentType)
  | addEventHandler (name : String)
  | enqueueEvent (name : String) (args : List EventArg)

namespace LocalHost

/-- The tag of the component in a place. -/
def tagAt? (h : LocalHost) (place : Nat) : Option Tag := h.components[place]?.bind (·.tag)

/-- The components with their tags, and the next numbers. -/
def numbering (h : LocalHost) : Numbering where
  cards := h.components.map fun c => (c.component, c.tag)
  next := h.next

end LocalHost

namespace HostOperation

open LocalHost

def perform (operation : HostOperation) (h : LocalHost) : LocalHost :=
  match operation with
  | addBuiltin name entry => (h.addBuiltin name entry).2
  | setPluginPath path => { h with pluginPath := path }
  | setFileToggle able => { h with fileToggle := able }
  | setConstant name value => h.setConstant name value
  | defineHandler qualified => h.defineHandler qualified
  | addSearchPath dir => Host.addSearchPath dir h
  | addComponent component => (Host.addComponent component h).2
  | initComponent place => (Host.initComponent place h).2
  | addScriptLocation name => Host.addScriptLocation name h
  | setProtocolEnabled id enabled => Host.setProtocolEnabled id enabled h
  | setFileEnabled id enabled => (Host.setFileEnabled id enabled h).2
  | bindPort id transport port => Host.bindPort id transport port h
  | lookupIdent name module => (Host.lookupIdent name module h).2
  | installIdent name module exported => (Host.installIdent name module exported h).2
  | exportIdent ident => Host.exportIdent ident h
  | setIdentType ident type => Host.setIdentType ident type h
  | addEventHandler name => Host.addEventHandler name h
  | enqueueEvent name args => Host.enqueueEvent name args h

/-- The number that is given out: to a component that the host ships with as it comes, to any other
one when it is first initialized. -/
def grant? (operation : HostOperation) (h : LocalHost) : Option Grant :=
  match operation with
  | addBuiltin _ entry => some ⟨entry.kind, h.components.length⟩
  | initComponent place =>
    match h.components[place]? with
    | some ⟨component, none, _, _⟩ => some ⟨component.entry.kind, place⟩
    | _ => none
  | _ => none

end HostOperation

namespace LocalHost

variable {h : LocalHost} {log : List Grant} {place : Nat} {tag : Tag}

def after (operations : List HostOperation) (h : LocalHost) : LocalHost :=
  operations.foldl (fun h operation => operation.perform h) h

/-- The numbers that are given out by operations, in their order. -/
def grants : List HostOperation → LocalHost → List Grant
  | [], _ => []
  | operation :: operations, h =>
    (operation.grant? h).toList ++ grants operations (operation.perform h)

theorem tagAt?_eq_some :
    h.tagAt? place = some tag ↔ ∃ c, h.components[place]? = some c ∧ c.tag = some tag :=
  Option.bind_eq_some_iff

theorem tag?_numbering (h : LocalHost) : h.numbering.tag? = h.tagAt? := by
  funext place
  rw [Numbering.tag?, numbering, List.getElem?_map, tagAt?]
  cases h.components[place]? <;> rfl

theorem getElem?_numbering {c : ComponentRecord} (hc : h.components[place]? = some c) :
    h.numbering.cards[place]? = some (c.component, c.tag) := by
  rw [numbering, List.getElem?_map, hc, Option.map_some]

/-- The next number of a kind is given to the component in a place. -/
def give (kind : Kind) (place : Nat) (h : LocalHost) : LocalHost :=
  { (h.allocate kind).2 with
    components := h.components.modify place ({ · with tag := some ⟨kind, h.next kind⟩ }) }

theorem numbering_give (kind : Kind) (place : Nat) (h : LocalHost) :
    (h.give kind place).numbering = h.numbering.grant kind place := by
  have hnext : (h.give kind place).next = Function.update h.next kind (h.next kind + 1) :=
    next_allocate kind h
  have hcards : (h.give kind place).components.map (fun c => (c.component, c.tag)) =
      (h.numbering.grant kind place).cards := by
    apply Registry.map_modify
    intro c
    rfl
  rw [numbering, hnext, hcards]
  rfl

section InitComponent

variable {c : ComponentRecord}

theorem initComponent_missing (hplace : h.components.length ≤ place) :
    Host.initComponent place h = (none, h) := by
  change h.initComponent place = _
  rw [initComponent, List.getElem?_eq_none hplace]

theorem initComponent_tagged (hc : h.components[place]? = some c) (htag : c.tag = some tag) :
    Host.initComponent place h = (some tag, h) := by
  change h.initComponent place = _
  simp only [initComponent, hc, htag]

theorem initComponent_untagged (hc : h.components[place]? = some c) (htag : c.tag = none) :
    Host.initComponent place h = (some ⟨c.component.entry.kind, h.next c.component.entry.kind⟩,
      h.give c.component.entry.kind place) := by
  change h.initComponent place = _
  simp only [initComponent, hc, htag, allocate_tag, components_allocate, give]

theorem initComponent_eq_none_iff :
    (Host.initComponent place h).1 = none ↔ h.components.length ≤ place := by
  constructor
  · intro hnone
    cases hc : h.components[place]? with
    | none => exact List.getElem?_eq_none_iff.mp hc
    | some c =>
      cases htag : c.tag with
      | some tag => simp [initComponent_tagged hc htag] at hnone
      | none => simp [initComponent_untagged hc htag] at hnone
  · intro hplace
    rw [initComponent_missing hplace]

/-- What a component is told is the tag that it has afterwards, and is told again. -/
theorem initComponent_settles (place : Nat) (h : LocalHost) :
    (Host.initComponent place h).1 = (Host.initComponent place h).2.tagAt? place ∧
      Host.initComponent place (Host.initComponent place h).2 = Host.initComponent place h := by
  cases hc : h.components[place]? with
  | none =>
    have hsame := initComponent_missing (List.getElem?_eq_none_iff.mp hc)
    rw [hsame]
    exact ⟨by rw [tagAt?, hc, Option.bind_none], hsame⟩
  | some c =>
    cases htag : c.tag with
    | some tag =>
      have hsame := initComponent_tagged hc htag
      rw [hsame]
      exact ⟨(tagAt?_eq_some.mpr ⟨c, hc, htag⟩).symm, hsame⟩
    | none =>
      rw [initComponent_untagged hc htag]
      have hgiven : (h.give c.component.entry.kind place).components[place]? = some { c with
          tag := some ⟨c.component.entry.kind, h.next c.component.entry.kind⟩ } := by
        rw [give, List.getElem?_modify, hc]
        simp
      exact ⟨(tagAt?_eq_some.mpr ⟨_, hgiven, rfl⟩).symm, initComponent_tagged hgiven rfl⟩

end InitComponent

theorem numbering_addBuiltin (name : String) (entry : Entry) (h : LocalHost) :
    (h.addBuiltin name entry).2.numbering =
      (h.numbering.enter ⟨name, entry⟩).grant entry.kind h.components.length := by
  have hmodify := modify_append_singleton (h.components.map fun c => (c.component, c.tag))
    (⟨name, entry⟩, none) fun card => (card.1, some ⟨entry.kind, h.next entry.kind⟩)
  rw [List.length_map] at hmodify
  rw [numbering, Roster.next_addBuiltin, Numbering.grant, Numbering.enter, numbering, hmodify,
    addBuiltin]
  simp only [components_allocate, allocate_tag, List.map_append, List.map_singleton]

theorem numbering_setEnabled (tag : Tag) (enabled : Bool) (h : LocalHost) :
    (h.setEnabled tag enabled).numbering = h.numbering :=
  congrArg (Numbering.mk · h.next) (Roster.map_enableIn _ (fun _ _ => rfl) tag enabled h.components)

/-- An operation adds a component or not, and gives out at most one number. -/
theorem steps_perform (operation : HostOperation) (h : LocalHost) :
    Numbering.Steps h.numbering (operation.grant? h).toList (operation.perform h).numbering := by
  cases operation with
  | addBuiltin name entry =>
    rw [HostOperation.perform, numbering_addBuiltin]
    refine (Numbering.Step.enter ⟨name, entry⟩ h.numbering).steps.trans ?_
    refine (Numbering.Step.grant _ ⟨name, entry⟩ ?_).steps
    simp [Numbering.enter, numbering]
  | addComponent component =>
    have henter : ((HostOperation.addComponent component).perform h).numbering =
        h.numbering.enter component := by
      rw [numbering, Numbering.enter, numbering]
      exact congrArg (Numbering.mk · h.next) List.map_append
    rw [henter]
    exact (Numbering.Step.enter component h.numbering).steps
  | initComponent place =>
    rw [HostOperation.perform]
    cases hc : h.components[place]? with
    | none =>
      rw [initComponent_missing (List.getElem?_eq_none_iff.mp hc), HostOperation.grant?, hc]
      exact .nil _
    | some c =>
      obtain ⟨component, tag, enabled, builtin⟩ := c
      rw [HostOperation.grant?, hc]
      cases tag with
      | some tag =>
        rw [initComponent_tagged hc rfl]
        exact .nil _
      | none =>
        rw [initComponent_untagged hc rfl, numbering_give]
        exact (Numbering.Step.grant place component (getElem?_numbering hc)).steps
  -- The others touch neither tags nor next numbers, which has to be said where they branch.
  | setProtocolEnabled id enabled =>
    rw [HostOperation.perform]
    change Numbering.Steps _ _ (h.setEnabled ⟨.protocol, id⟩ enabled).numbering
    rw [numbering_setEnabled]
    exact .nil _
  | setFileEnabled id enabled =>
    rw [HostOperation.perform]
    change Numbering.Steps _ _ (h.setEnabled ⟨.file, id⟩ enabled).numbering
    rw [numbering_setEnabled]
    exact .nil _
  | addScriptLocation name =>
    simp only [HostOperation.perform, Host.addScriptLocation]
    split <;> exact .nil _
  | defineHandler qualified =>
    simp only [HostOperation.perform, defineHandler]
    split <;> exact .nil _
  | _ => exact .nil _

theorem steps_after (operations : List HostOperation) (h : LocalHost) :
    Numbering.Steps h.numbering (grants operations h) (h.after operations).numbering := by
  induction operations generalizing h with
  | nil => exact .nil _
  | cons operation operations ih => exact (steps_perform operation h).trans (ih _)

theorem kept_after {c : ComponentRecord} (hc : h.components[place]? = some c)
    (htag : c.tag = some tag) (operations : List HostOperation) :
    ∃ c' : ComponentRecord, (h.after operations).components[place]? = some c' ∧
      c'.component = c.component ∧ c'.tag = some tag := by
  have hcard := getElem?_numbering hc
  rw [htag] at hcard
  have hkept := (steps_after operations h).kept hcard
  rw [numbering, List.getElem?_map, Option.map_eq_some_iff] at hkept
  obtain ⟨c', hc', hsame⟩ := hkept
  exact ⟨c', hc', congrArg Prod.fst hsame, congrArg Prod.snd hsame⟩

theorem carries_iff : h.carries tag = true ↔ ∃ place, h.tagAt? place = some tag := by
  simp only [carries, List.any_eq_true, decide_eq_true_eq, List.mem_iff_getElem?, tagAt?_eq_some]
  constructor
  · rintro ⟨c, ⟨place, hc⟩, htag⟩
    exact ⟨place, c, hc, htag⟩
  · rintro ⟨place, c, hc, htag⟩
    exact ⟨c, ⟨place, hc⟩, htag⟩

/-- If a component of `h` carries the tag, `h'` differs in whether that one is on, and otherwise in
nothing. -/
structure Switched (h : LocalHost) (tag : Tag) (enabled : Bool) (h' : LocalHost) : Prop where
  carried : ∀ place, h.tagAt? place = some tag →
    h' = { h with components := h.components.modify place ({ · with enabled }) }
  missing : (∀ place, h.tagAt? place ≠ some tag) → h' = h

theorem switched_setEnabled
    (hunique : ∀ i j, h.tagAt? i = some tag → h.tagAt? j = some tag → i = j) (enabled : Bool) :
    h.Switched tag enabled (h.setEnabled tag enabled) := by
  constructor
  · intro i hi
    cases hplace : place? h.components tag with
    | none =>
      obtain ⟨c, hc, htag⟩ := tagAt?_eq_some.mp hi
      have hnone := List.findIdx?_eq_none_iff.mp hplace c (List.mem_of_getElem? hc)
      exact absurd htag (of_decide_eq_false hnone)
    | some j =>
      -- The oldest that carries the tag is the only one.
      obtain rfl := hunique i j hi (tagAt?_eq_some.mpr (tag_of_place? hplace))
      rw [setEnabled, enableIn_eq_modify hplace]
  · intro hmissing
    have hnot : h.carries tag = false :=
      Bool.eq_false_iff.mpr fun hcarries => (carries_iff.mp hcarries).elim hmissing
    rw [setEnabled, Roster.enableIn_of_not_carried hnot]

/-- The tags of a host are the numbers that the log has given, in turn. -/
structure Numbers (h : LocalHost) (log : List Grant) : Prop where
  next : ∀ kind, (h.next kind).toNat = (recipients kind log).length + 1
  /-- Who got the first number of a kind has number one, and so on. -/
  inTurn : ∀ kind, (recipients kind log).map h.tagAt? =
    (List.range (recipients kind log).length).map fun turn => some ⟨kind, .ofNat (turn + 1)⟩
  carried : ∀ tag, (∃ place, h.tagAt? place = some tag) ↔
    1 ≤ tag.id.toNat ∧ tag.id.toNat ≤ (recipients tag.kind log).length
  unique : ∀ tag i j, h.tagAt? i = some tag → h.tagAt? j = some tag → i = j
  kind : ∀ c ∈ h.components, ∀ tag, c.tag = some tag → tag.kind = c.component.entry.kind
  /-- Nothing takes a component away, or its tag. -/
  kept : ∀ (operations : List HostOperation) (place : Nat) (c : ComponentRecord) (tag : Tag),
    h.components[place]? = some c → c.tag = some tag → ∃ c' : ComponentRecord,
      (h.after operations).components[place]? = some c' ∧ c'.component = c.component ∧
        c'.tag = some tag
  unknown : ∀ place, (Host.initComponent place h).1 = none ↔ h.components.length ≤ place
  /-- A component is told the tag that it has from then on. -/
  told : ∀ place, (Host.initComponent place h).1 = (Host.initComponent place h).2.tagAt? place
  again : ∀ place,
    Host.initComponent place (Host.initComponent place h).2 = Host.initComponent place h
  value : ∀ kind value, Host.tagOfValue? h kind value =
    if 1 ≤ value.value.toNat ∧ value.value.toNat ≤ (recipients kind log).length then
      some ⟨kind, value.value⟩
    else none
  setProtocol : ∀ id enabled,
    h.Switched ⟨.protocol, id⟩ enabled (Host.setProtocolEnabled id enabled h)
  setFile : ∀ id enabled, h.Switched ⟨.file, id⟩ enabled (Host.setFileEnabled id enabled h).2

theorem tagAt?_unique (hturn : h.numbering.InTurn log) {i j : Nat} (hi : h.tagAt? i = some tag)
    (hj : h.tagAt? j = some tag) : i = j := by
  rw [← tag?_numbering] at hi hj
  exact hturn.unique hi hj

theorem exists_tagAt?_iff (hturn : h.numbering.InTurn log) (tag : Tag) :
    (∃ place, h.tagAt? place = some tag) ↔
      1 ≤ tag.id.toNat ∧ tag.id.toNat ≤ (recipients tag.kind log).length := by
  rw [← tag?_numbering]
  exact hturn.carried_iff tag

theorem numbers_of_inTurn (hturn : h.numbering.InTurn log) (hfit : h.numbering.Fitting)
    (hroom : ∀ kind, (recipients kind log).length < UInt32.size - 1) : h.Numbers log where
  next := hturn.next_eq
  inTurn kind := tag?_numbering h ▸ hturn.tags_recipients kind (hroom kind)
  carried := exists_tagAt?_iff hturn
  unique _ _ _ := tagAt?_unique hturn
  kind := by
    intro c hc tag htag
    obtain ⟨place, hplace⟩ := List.mem_iff_getElem?.mp hc
    have hcard := getElem?_numbering hplace
    rw [htag] at hcard
    exact hfit place c.component tag hcard
  kept operations _ _ _ hc htag := kept_after hc htag operations
  unknown _ := initComponent_eq_none_iff
  told place := (initComponent_settles place h).1
  again place := (initComponent_settles place h).2
  value := by
    intro kind value
    change (if h.carries ⟨kind, value.value⟩ then _ else _) = _
    simp only [carries_iff, exists_tagAt?_iff hturn]
  setProtocol _ := switched_setEnabled fun _ _ => tagAt?_unique hturn
  setFile _ := switched_setEnabled fun _ _ => tagAt?_unique hturn

variable (version : UInt32) (pluginPath : String) (fileToggle : Bool)

theorem inTurn_new : (new version pluginPath fileToggle).numbering.InTurn [] := by
  constructor
  · intro kind
    cases kind <;> rfl
  · intro place tag
    simp [tag?_numbering, tagAt?, new, Received, recipients]

theorem fitting_new : (new version pluginPath fileToggle).numbering.Fitting := by
  intro place component tag hcard
  simp [numbering, new] at hcard

/-- Whatever is done to a new host, its tags are numbers given out in turn, while numbers last. -/
theorem numbers_after (operations : List HostOperation)
    (hroom : ∀ kind, (recipients kind
      (grants operations (new version pluginPath fileToggle))).length < UInt32.size - 1) :
    ((new version pluginPath fileToggle).after operations).Numbers
      (grants operations (new version pluginPath fileToggle)) := by
  have hsteps := steps_after operations (new version pluginPath fileToggle)
  have hfit := fitting_new version pluginPath fileToggle
  exact numbers_of_inTurn ((inTurn_new ..).steps hsteps hroom) (hfit.steps hsteps) hroom

/-- Components that come before they are initialized, the second of them first. -/
def lateTags : List HostOperation :=
  [.addComponent ⟨"A", .tcp⟩, .addComponent ⟨"B", .udp⟩, .addBuiltin "C" .tcp, .initComponent 1,
    .addBuiltin "D" .file, .initComponent 0, .initComponent 1, .initComponent 9]

/-- Numbers go by who is initialized first, and not by who came first. -/
theorem numbers_after_lateTags :
    let h := (new 0 "" true).after lateTags
    [2, 1, 0].map h.tagAt? = [some ⟨.protocol, 1⟩, some ⟨.protocol, 2⟩, some ⟨.protocol, 3⟩] ∧
      (Host.initComponent 4 h).1 = none ∧
      Host.tagOfValue? h .file ⟨"Files::Tag", 1⟩ = some ⟨.file, 1⟩ ∧
      Host.tagOfValue? h .file ⟨"Files::Tag", 2⟩ = none ∧
      Host.setProtocolEnabled 3 false h =
        { h with components := h.components.modify 0 ({ · with enabled := false }) } := by
  have hlog : grants lateTags (new 0 "" true) =
      [⟨.protocol, 2⟩, ⟨.protocol, 1⟩, ⟨.file, 3⟩, ⟨.protocol, 0⟩] := by decide +kernel
  have hnumbers := numbers_after 0 "" true lateTags fun kind => by
    cases kind <;> decide +kernel
  rw [hlog] at hnumbers
  refine ⟨hnumbers.inTurn .protocol, ?_, ?_, ?_, ?_⟩
  · exact (hnumbers.unknown 4).mpr (by decide +kernel)
  · exact hnumbers.value .file ⟨"Files::Tag", 1⟩
  · exact hnumbers.value .file ⟨"Files::Tag", 2⟩
  · exact (hnumbers.setProtocol 3 false).carried 0 (by decide +kernel)

end LocalHost

end TrafficAnalyzers
