import TrafficAnalyzers.Proofs.Interchange.Portrait
import TrafficAnalyzers.Proofs.Interchange.References
import TrafficAnalyzers.Proofs.Toggles
/-!
Registration seen on portraits. Main statement: as long as there is room for numbers, a registration
succeeds, and what it makes of the portrait depends on the portrait only.
-/
namespace TrafficAnalyzers

namespace LocalHost

variable {h h' : LocalHost} {descriptor? descriptor?' : Tag → Option Descriptor} {kind : Kind}
  {name : String} {id : UInt32}

theorem nameOf?_eq_marks (h : LocalHost) (descriptor? : Tag → Option Descriptor) (tag : Tag) :
    h.nameOf? tag =
      ((h.roster descriptor?).marks.find? (·.tag = some tag)).map (·.component.name) := by
  rw [nameOf?, Roster.marks, roster, List.find?_map, Option.map_map]
  rfl

/-- The component of the number that the host finds by a name has that name. -/
theorem nameOf?_of_id? (hs : (h.roster descriptor?).Sound) (hid : h.id? kind name = some id) :
    h.nameOf? ⟨kind, id⟩ = some name := by
  obtain ⟨m, hm, htag, hname⟩ := Roster.mem_marks_of_id? (o := h.roster descriptor?) hid
  rw [h.nameOf?_eq_marks descriptor?]
  cases hfind : (h.roster descriptor?).marks.find? (·.tag = some ⟨kind, id⟩) with
  | none =>
    have hnot := List.find?_eq_none.mp hfind m hm
    simp [htag] at hnot
  | some found =>
    have htag' : found.tag = some ⟨kind, id⟩ := by simpa using List.find?_some hfind
    have hsame := hs.numbered.eq_of_tag (List.mem_of_find?_eq_some hfind) hm htag' htag
    rw [Option.map_some, hsame, hname]

/-- A carried tag keeps its component, and so its name. -/
theorem nameOf?_of_prefix (hmarks : (h.roster descriptor?).marks <+: (h'.roster descriptor?').marks)
    {tag : Tag} (ht : h.carries tag = true) : h'.nameOf? tag = h.nameOf? tag := by
  obtain ⟨m, hm, htag⟩ := (@Registry.carries_iff h descriptor? tag).mp ht
  obtain ⟨rest, hrest⟩ := hmarks
  rw [h'.nameOf?_eq_marks descriptor?', h.nameOf?_eq_marks descriptor?, ← hrest, List.find?_append]
  cases hfind : (h.roster descriptor?).marks.find? (·.tag = some tag) with
  | none =>
    have hnot := List.find?_eq_none.mp hfind m hm
    simp [htag] at hnot
  | some found => rfl

theorem allocated_adopt (entry : Entry) (name : String) (replaces : Option UInt32) (h : LocalHost)
    (kind : Kind) : (h.adopt entry name replaces).allocated kind =
      h.allocated kind + if entry.kind = kind then 1 else 0 := by
  have hsame : (h.supersede entry.kind replaces).allocated kind = h.allocated kind := by
    rw [← Roster.tagCount_marks _ fun _ => none, roster_supersede,
      ← Roster.tagCount_marks h fun _ => none]
    cases replaces with
    | none => rfl
    | some id => exact congrArg (Roster.tagCount · kind) (Roster.marks_switch _ _ _)
  rw [adopt, allocated, enrol, List.countP_append, ← hsame]
  simp [allocated, List.countP_cons]

theorem component?_eq (h : LocalHost) (kind : Kind) (name : String) :
    h.component? kind name = h.components.find? (·.key = (kind, name)) := by
  simp [component?, ComponentRecord.key]

/-- By a name the host finds the first component of its kind and name. -/
theorem findIdx?_of_id? (hid : h.id? kind name = some id) :
    ∃ n c, h.components.findIdx? (·.key = (kind, name)) = some n ∧ h.components[n]? = some c ∧
      c.tag = some ⟨kind, id⟩ := by
  simp only [id?, component?_eq, Option.bind_eq_some_iff, Option.ite_none_right_eq_some,
    Option.some.injEq, List.find?_eq_bind_findIdx?_getElem?] at hid
  obtain ⟨tag, ⟨c, ⟨n, hn, hc⟩, htag⟩, rfl, rfl⟩ := hid
  exact ⟨n, c, hn, hc, htag⟩

/-- The host finds nothing by a name only if it has no component of that name. -/
theorem id?_eq_none_iff (hs : (h.roster descriptor?).Sound) :
    h.id? kind name = none ↔ filed ComponentRecord.key h.components (kind, name) = [] := by
  rw [← List.head?_eq_none_iff, filed, List.head?_filter, ← component?_eq, id?]
  cases hc : h.component? kind name with
  | none => simp
  | some c =>
    obtain ⟨id, htag, -⟩ := hs.numbered.tagged c.mark
      (List.mem_map_of_mem (List.mem_of_find?_eq_some hc))
    have hkind : c.component.entry.kind = kind := by
      have hfound := List.find?_some hc
      simp only [Bool.and_eq_true, decide_eq_true_eq] at hfound
      exact hfound.1
    have htag : c.tag = some ⟨kind, id⟩ := by rw [← hkind]; exact htag
    simp [htag]

end LocalHost

namespace Registry

variable {r r' : Registry LocalHost}

/-- A name that the host does not know stands for no components. -/
theorem isEmpty_components (hs : r.roster.Sound) (kind : Kind) (name : String) :
    (r.portrait.components (kind, name)).isEmpty = (r.host.id? kind name).isNone := by
  have hmap : r.portrait.components (kind, name) =
      (filed ComponentRecord.key r.host.components (kind, name)).map (·.untagged) := by
    change (r.host.components.map (·.untagged)).filter _ = _
    rw [List.filter_map]
    rfl
  rw [hmap, List.isEmpty_map, Bool.eq_iff_iff, List.isEmpty_iff, Option.isNone_iff_eq_none]
  exact (LocalHost.id?_eq_none_iff hs).symm

/-- What a newcomer replaces is turned off, in the list of its kind and name. -/
theorem filed_supersede (hs : r.roster.Sound) (n : Newcomer) :
    filed ComponentRecord.key ((r.host.supersede n.entry.kind
        (n.replaces.bind (r.host.id? n.entry.kind))).components.map (·.untagged)) =
      n.supersede (filed ComponentRecord.key (r.host.components.map (·.untagged))) := by
  unfold Newcomer.supersede
  cases n.replaces with
  | none => rfl
  | some name =>
    rw [Option.bind_some, Option.elim_some]
    cases hid : r.host.id? n.entry.kind name with
    | none =>
      have hempty : filed ComponentRecord.key (r.host.components.map (·.untagged))
          (n.entry.kind, name) = [] := by
        have hnone := isEmpty_components hs n.entry.kind name
        rw [hid] at hnone
        exact List.isEmpty_iff.mp hnone
      rw [alter, hempty, List.modifyHead_nil, ← hempty, Function.update_eq_self]
      rfl
    | some id =>
      obtain ⟨m, c, hm, hc, htag⟩ := LocalHost.findIdx?_of_id? hid
      have hplace : place? r.host.components ⟨n.entry.kind, id⟩ = some m :=
        place?_of_pairwise (hs.components_pairwise _) hc htag
      have hmap : (r.host.components.map (·.untagged)).findIdx? (·.key = (n.entry.kind, name)) =
          some m := by
        rw [List.findIdx?_map]
        exact hm
      have hoff : (r.host.components.modify m ({ · with enabled := false })).map (·.untagged) =
          (r.host.components.map (·.untagged)).modify m (·.off) := map_modify fun _ => rfl
      change filed _ ((LocalHost.enableIn _ false r.host.components).map _) = _
      rw [enableIn_eq_modify hplace, hoff]
      exact filed_modify (f := ComponentRecord.off) (fun _ => rfl) hmap

/-- An analyzer that is added to the host comes last among those of its kind and name. -/
theorem filed_adopt (hs : r.roster.Sound) (n : Newcomer) :
    filed ComponentRecord.key ((r.host.adopt n.entry n.name
        (n.replaces.bind (r.host.id? n.entry.kind))).components.map (·.untagged)) =
      n.join (filed ComponentRecord.key (r.host.components.map (·.untagged))) := by
  rw [LocalHost.adopt, LocalHost.enrol, List.map_append, List.map_singleton]
  change filed ComponentRecord.key (_ ++ [n.component]) = _
  rw [filed_concat, filed_supersede hs]
  rfl

/-- The tag of a replaced analyzer is carried. -/
theorem carries_replaced (hr : r.Ordered) (hs : r.roster.Sound) {kind : Kind} {d : AnalyzerRecord}
    (hd : d ∈ r.analyzers.records kind) {tag : Tag} (htag : d.replaced? = some tag) :
    r.host.carries tag = true := by
  obtain ⟨rfl, hfound⟩ := hr.placed.descriptor?_of_mem hd
  obtain ⟨id, hid, rfl⟩ := Option.map_eq_some_iff.mp htag
  obtain ⟨-, m, hm, hmtag, -⟩ := (hs.described _ _ hfound).replaced id hid
  exact carries_iff.mpr ⟨m, hm, hmtag⟩

/-- Records, bindings and events keep the names that they refer to. -/
structure SameNames (r : Registry LocalHost) (h : LocalHost) : Prop where
  records : ∀ kind, (r.analyzers.records kind).map h.depict =
    (r.analyzers.records kind).map r.host.depict
  bindings : r.host.portBindings.map h.depictBinding =
    r.host.portBindings.map r.host.depictBinding
  queued : r.host.queuedEvents.map h.depictEvent = r.host.queuedEvents.map r.host.depictEvent

theorem sameNames_of_leads (hr : r.Ordered) (hs : r.roster.Sound) (ht : r.Tied)
    (hleads : Leads r r') : r.SameNames r'.host := by
  have hname {tag : Tag} (h : r.host.carries tag = true) :
      r'.host.nameOf? tag = r.host.nameOf? tag :=
    LocalHost.nameOf?_of_prefix (Roster.marks_leads (hleads hr.placed).2) h
  refine ⟨fun kind => ?_, ?_, ?_⟩ <;> apply List.map_congr_left
  · intro d hd
    rw [LocalHost.depict, LocalHost.depict]
    cases htag : d.replaced? with
    | none => rfl
    | some tag => rw [Option.bind_some, hname (carries_replaced hr hs hd htag), Option.bind_some]
  · intro b hb
    rw [LocalHost.depictBinding, hname (ht.bindings b hb), LocalHost.depictBinding]
  · intro e he
    rw [LocalHost.depictEvent, LocalHost.depictEvent, Prod.mk.injEq]
    refine ⟨rfl, List.map_congr_left fun arg harg => ?_⟩
    cases arg with
    | fileTag id => exact congrArg Sum.inl (hname (ht.queued e he id harg))
    | text value => rfl

/-- A newcomer's record is put last among those of its kind. -/
def Enters (n : Newcomer) (replaces : Option UInt32) (put : UInt32 → Analyzers → Analyzers) :
    Prop :=
  ∀ {a : Analyzers} {id : UInt32}, a.Placed → id ≠ 0 →
    (∀ e ∈ a.records n.entry.kind, e.descriptor.id < id) →
    ∃ d : AnalyzerRecord, d.untagged = n.record ∧ d.name = n.name ∧
      d.replaced? = replaces.map (⟨n.entry.kind, ·⟩) ∧
      (put id a).records =
        Function.update a.records n.entry.kind (a.records n.entry.kind ++ [d])

/-- A newcomer replaces what there is under the name that it wants to replace. -/
theorem name_of_replaced (hs : r.roster.Sound) (hp : r.analyzers.Placed) (hleads : Leads r r')
    (n : Newcomer) : ((n.replaces.bind (r.host.id? n.entry.kind)).map
      (⟨n.entry.kind, ·⟩)).bind r'.host.nameOf? = n.replaced? r.portrait.components := by
  unfold Newcomer.replaced?
  cases n.replaces with
  | none => rfl
  | some name =>
    have hempty := isEmpty_components hs n.entry.kind name
    rw [Option.bind_some]
    cases hid : r.host.id? n.entry.kind name with
    | none => simp [Option.filter, hempty, hid]
    | some id =>
      have hkept := LocalHost.nameOf?_of_prefix (Roster.marks_leads (hleads hp).2)
        (carries_of_id? hid)
      rw [hid] at hempty
      rw [Option.map_some, Option.bind_some, hkept, LocalHost.nameOf?_of_id? hs hid]
      simp [Option.filter, hempty]

/-- What a registration finds stays. -/
theorem rest_adopt (entry : Entry) (name : String) (replaces : Option UInt32) (h : LocalHost) :
    (h.adopt entry name replaces).rest = h.rest := by
  cases entry <;> cases replaces <;> rfl

section Adopted

variable {n : Newcomer} {replaces : Option UInt32} (hr : r.Ordered) (ht : r.Tied)
  (hroom : r.host.Roomy) (hreplaces : replaces = n.replaces.bind (r.host.id? n.entry.kind))

include hr ht hroom hreplaces

/-- Where an analyzer was added and its record put last, a newcomer came in. -/
theorem portrait_of_adopted (hleads : Leads r r')
    (hhost : r'.host = r.host.adopt n.entry n.name replaces) {d : AnalyzerRecord}
    (hrecord : d.untagged = n.record) (hname : d.name = n.name)
    (hold : d.replaced? = replaces.map (⟨n.entry.kind, ·⟩))
    (hrecords : r'.analyzers.records =
      Function.update r.analyzers.records n.entry.kind (r.analyzers.records n.entry.kind ++ [d]))
    (hevents : r'.events = r.events) (hruntime : r'.runtime = r.runtime) :
    r'.portrait = r.portrait.receive n := by
  have hs := hr.sound hroom
  have hnames := sameNames_of_leads hr hs ht hleads
  have hdepict : r'.host.depict d = (n.record, n.replaced? r.portrait.components) := by
    rw [LocalHost.depict, hrecord, hold, ← name_of_replaced hs hr.placed hleads n, ← hreplaces]
  have hlist : (fun kind => (r'.analyzers.records kind).map r'.host.depict) =
      Function.update (fun kind => (r.analyzers.records kind).map r.host.depict) n.entry.kind
        ((r.analyzers.records n.entry.kind).map r.host.depict ++
          [(n.record, n.replaced? r.portrait.components)]) := by
    funext kind
    rw [hrecords, Function.update_apply, Function.update_apply]
    split
    next => rw [List.map_append, List.map_singleton, hdepict, hnames.records]
    next => exact hnames.records kind
  have hkey : n.key = (n.entry.kind, n.record.name) := by
    rw [Newcomer.key, ← hrecord, AnalyzerRecord.name_untagged, hname]
  have hlocations : r'.host.scriptLocations =
      (r.roster.enrol n.entry n.name replaces "").locations := by
    rw [hhost]
    cases replaces <;> rfl
  have hsame : r'.host.portBindings = r.host.portBindings ∧
      r'.host.queuedEvents = r.host.queuedEvents ∧ r'.host.idents = r.host.idents ∧
      r'.host.eventHandlers = r.host.eventHandlers := by
    rw [hhost]
    cases n.entry <;> cases replaces <;> exact ⟨rfl, rfl, rfl, rfl⟩
  ext : 1 <;> simp only [portrait, Portrait.receive, hevents, hruntime]
  case rest => rw [hhost, rest_adopt]
  case components =>
    rw [hhost, hreplaces]
    exact filed_adopt hs n
  case records =>
    rw [hkey]
    exact (congrArg (fun rs (k : Kind × String) => filed (·.1.name) (rs k.1) k.2) hlist).trans
      (filed_update _ _ _)
  case locations =>
    rw [hlocations]
    refine Set.ext fun l => ?_
    rw [Set.mem_insert_iff, or_comm]
    exact Roster.mem_locations_enrol
  case bindings => rw [hsame.1, hnames.bindings]
  case queued => rw [hsame.2.1, hnames.queued]
  case idents => rw [hsame.2.2.1]
  case handlers => rw [hsame.2.2.2]

/-- A registration that adds an analyzer succeeds and lets a newcomer in. -/
theorem portrait_of_silent {put : UInt32 → Analyzers → Analyzers} (hput : Enters n replaces put)
    {o : Outcome (Registry LocalHost) Unit}
    (hout : o.silent = r.adopted n.entry n.name replaces put) (hleads : Leads r o.state) :
    o.result = .ok () ∧ o.state.portrait = r.portrait.receive n := by
  have hs := hr.sound hroom
  have h0 : r.host.next n.entry.kind ≠ 0 := hs.next_ne_zero n.entry.kind
  have hlast (e : AnalyzerRecord) (he : e ∈ r.analyzers.records n.entry.kind) :
      e.descriptor.id < r.host.next n.entry.kind := by
    obtain ⟨-, hfound⟩ := hr.placed.descriptor?_of_mem he
    obtain ⟨entry, -, -, hmem⟩ := (hs.described _ _ hfound).carried
    exact hs.numbered.lt_next hmem rfl
  obtain ⟨d, hrecord, hname, hold, hrecords⟩ := hput hr.placed h0 hlast
  rw [adopted, if_neg h0] at hout
  have hstate := state_of_silent hout
  refine ⟨congrArg Prod.fst hout, ?_⟩
  rw [hstate] at hleads ⊢
  exact portrait_of_adopted hr ht hroom hreplaces hleads rfl hrecord hname hold hrecords rfl rfl

end Adopted

/-- Records of one kind come in, and those of the others stay. -/
theorem records_eq_update {a b : Analyzers} {kind : Kind} {l : List AnalyzerRecord}
    (h : b.records kind = l) (hothers : ∀ k, k ≠ kind → b.records k = a.records k) :
    b.records = Function.update a.records kind l := by
  funext k
  rw [Function.update_apply]
  split
  next hk => rw [hk, h]
  next hk => exact hothers k hk

theorem enters_putProtocol {decl : ProtocolDecl} {entry : Entry} (hkind : entry.kind = .protocol)
    (replaces : Option UInt32) : Enters ⟨entry, decl.name, Registration.wanted? decl.replaces,
      .protocol ⟨0, decl, scriptLocation decl.name, none, none, none⟩⟩ replaces
      (Analyzers.putProtocol decl replaces) := by
  intro a id ha h0 hlast
  simp only [hkind] at hlast ⊢
  have hlist := ha.protocol.toList_insert_last
    (d := ⟨id, decl, scriptLocation decl.name, replaces, none, none⟩)
    (fun e he => hlast (.protocol e) (List.mem_map_of_mem he)) h0
  refine ⟨.protocol ⟨id, decl, scriptLocation decl.name, replaces, none, none⟩, rfl, rfl, rfl, ?_⟩
  refine records_eq_update ?_ fun k hk => by cases k <;> first | rfl | exact absurd rfl hk
  exact (congrArg (List.map AnalyzerRecord.protocol) hlist).trans List.map_append

theorem enters_putFile (decl : FileDecl) (wanted : Option String) (replaces : Option UInt32) :
    Enters ⟨.file, decl.name, wanted, .file ⟨0, decl, scriptLocation decl.name, none, none⟩⟩
      replaces (Analyzers.putFile decl replaces) := by
  intro a id ha h0 hlast
  have hlist := ha.file.toList_insert_last
    (d := ⟨id, decl, scriptLocation decl.name, replaces, none⟩)
    (fun e he => hlast (.file e) (List.mem_map_of_mem he)) h0
  refine ⟨.file ⟨id, decl, scriptLocation decl.name, replaces, none⟩, rfl, rfl, rfl, ?_⟩
  refine records_eq_update ?_ fun k hk => by cases k <;> first | rfl | exact absurd rfl hk
  exact (congrArg (List.map AnalyzerRecord.file) hlist).trans List.map_append

theorem enters_putPacket (decl : PacketDecl) :
    Enters ⟨.packet, decl.name, none, .packet ⟨0, decl, scriptLocation decl.name, none⟩⟩ none
      (Analyzers.putPacket decl) := by
  intro a id ha h0 hlast
  have hlist := ha.packet.toList_insert_last (d := ⟨id, decl, scriptLocation decl.name, none⟩)
    (fun e he => hlast (.packet e) (List.mem_map_of_mem he)) h0
  refine ⟨.packet ⟨id, decl, scriptLocation decl.name, none⟩, rfl, rfl, rfl, ?_⟩
  refine records_eq_update ?_ fun k hk => by cases k <;> first | rfl | exact absurd rfl hk
  exact (congrArg (List.map AnalyzerRecord.packet) hlist).trans List.map_append

/-- The identifiers of an event's name, with the event's among them. -/
theorem filed_eventIdents (name : String) (h : LocalHost) :
    filed Ident.name (eventIdents name h) = alter name (fun
      | [] => [⟨name, true, none⟩]
      | i :: is => { i with exported := true } :: is) (filed Ident.name h.idents) := by
  unfold eventIdents
  rw [eventName_eq]
  cases hn : h.identIndex? name with
  | some n =>
    have hmodify :=
      filed_modify (f := fun i : Ident => { i with exported := true }) (fun _ => rfl) hn
    obtain ⟨i, is, hl⟩ := filed_of_findIdx? hn
    refine hmodify.trans (alter_congr ?_)
    rw [hl, List.modifyHead_cons]
  | none =>
    refine (filed_concat _ _ _).trans (alter_congr ?_)
    rw [filed_eq_nil_iff.mpr hn]
    rfl

/-- The identifiers of an enum type's name, with the type's unless there are some. -/
theorem filed_enumIdents (space id : String) (labels : List (String × Int64)) (h : LocalHost) :
    filed Ident.name (match h.identIndex? (LocalHost.qualify id space) with
        | some _ => h.idents
        | none => h.idents ++ [enumIdent space id labels]) =
      alter (LocalHost.qualify id space) (fun
        | [] => [enumIdent space id labels]
        | i :: is => i :: is) (filed Ident.name h.idents) := by
  cases hn : h.identIndex? (LocalHost.qualify id space) with
  | some n =>
    have hsame := alter_id (LocalHost.qualify id space) (filed Ident.name h.idents)
    obtain ⟨i, is, hl⟩ := filed_of_findIdx? hn
    refine hsame.symm.trans (alter_congr ?_)
    rw [hl, id_eq]
  | none =>
    have hnone : filed Ident.name h.idents (LocalHost.qualify id space) = [] :=
      filed_eq_nil_iff.mpr hn
    change filed Ident.name (h.idents ++ [enumIdent space id labels]) = _
    rw [filed_concat]
    change alter (LocalHost.qualify id space) _ _ = _
    refine alter_congr ?_
    rw [hnone]
    rfl

theorem wanted_of_replaced? (r : Registry LocalHost) (kind : Kind) (name : String) :
    r.roster.replaced? kind name = (Registration.wanted? name).bind (r.host.id? kind) := by
  unfold Roster.replaced? Registration.wanted?
  split <;> rfl

section Analyzer

variable (hr : r.Ordered) (ht : r.Tied) (hroom : r.host.Roomy)

include hr ht hroom

/-- A protocol analyzer over a transport without an entry is left out. -/
theorem portrait_registerProtocol (decl : ProtocolDecl) :
    (registerProtocol decl r).result = .ok () ∧
      (registerProtocol decl r).state.portrait = r.portrait.act (.protocol decl) := by
  rw [Portrait.act_of_analyzer (x := .protocol decl) rfl, Registration.newcomer?]
  cases hentry : entryFor? decl.transport with
  | none =>
    have hout := silent_registerProtocol_of_none hentry r
    refine ⟨congrArg Prod.fst hout, ?_⟩
    rw [state_of_silent hout]
    rfl
  | some entry =>
    have hkind := kind_of_entryFor? hentry
    rw [Option.map_some, Option.elim_some]
    refine portrait_of_silent hr ht hroom ?_ (enters_putProtocol hkind _)
      (silent_registerProtocol hentry r) (follows_registerProtocol decl r)
    rw [wanted_of_replaced?, ← hkind]

theorem portrait_registerFile (decl : FileDecl) : (registerFile decl r).result = .ok () ∧
    (registerFile decl r).state.portrait = r.portrait.act (.file decl) := by
  rw [Portrait.act_of_analyzer (x := .file decl) rfl, Registration.newcomer?, Option.elim_some]
  refine portrait_of_silent hr ht hroom ?_ (enters_putFile decl _ _) (silent_registerFile decl r)
    (follows_registerFile decl r)
  have htoggle : r.portrait.rest.fileToggle = r.roster.fileToggle := rfl
  rw [Roster.replacedFile?, wanted_of_replaced?, htoggle]
  split <;> rfl

theorem portrait_registerPacket (decl : PacketDecl) : (registerPacket decl r).result = .ok () ∧
    (registerPacket decl r).state.portrait = r.portrait.act (.packet decl) := by
  rw [Portrait.act_of_analyzer (x := .packet decl) rfl, Registration.newcomer?, Option.elim_some]
  exact portrait_of_silent hr ht hroom rfl (enters_putPacket decl) (silent_registerPacket decl r)
    (follows_registerPacket decl r)

end Analyzer

theorem portrait_registerEvent (name : String) (r : Registry LocalHost) :
    (registerEvent name r).result = .ok () ∧
      (registerEvent name r).state.portrait = r.portrait.act (.event name) := by
  have hout := silent_registerEvent name r
  refine ⟨congrArg Prod.fst hout, ?_⟩
  rw [state_of_silent hout]
  ext : 1
  case idents => exact filed_eventIdents name r.host
  case events => exact Set.ext fun _ => SortedMap.mem_keys_insert _
  case handlers => exact Set.ext fun _ => SortedMap.mem_keys_insert _
  all_goals rfl

theorem portrait_registerEnumType (space id : String) (labels : List (String × Int64))
    (r : Registry LocalHost) : (registerEnumType space id labels r).result = .ok () ∧
      (registerEnumType space id labels r).state.portrait =
        r.portrait.act (.enumType space id labels) := by
  have hout := silent_registerEnumType space id labels r
  have hidents := filed_enumIdents space id labels r.host
  refine ⟨congrArg Prod.fst hout, ?_⟩
  rw [state_of_silent hout]
  cases hn : r.host.identIndex? (LocalHost.qualify id space) <;>
    rw [hn] at hidents <;> ext : 1
  case none.idents => exact hidents
  case some.idents => exact hidents
  all_goals rfl

/-- As long as there is room, a registration succeeds and acts on the portrait. -/
theorem portrait_register (hr : r.Ordered) (ht : r.Tied) (x : Registration)
    (hroom : (register x r).state.host.Roomy) : (register x r).result = .ok () ∧
      (register x r).state.portrait = r.portrait.act x := by
  have hbefore : r.host.Roomy := hr.roomy (keeps_register x r).leads hroom
  cases x with
  | parser parser =>
    refine ⟨rfl, ?_⟩
    ext : 1
    case parsers => exact filed_concat Parser.name r.runtime.parsers parser
    all_goals rfl
  | protocol decl => exact portrait_registerProtocol hr ht hbefore decl
  | file decl => exact portrait_registerFile hr ht hbefore decl
  | packet decl => exact portrait_registerPacket hr ht hbefore decl
  | event name => exact portrait_registerEvent name r
  | enumType space id labels => exact portrait_registerEnumType space id labels r

/-- As long as there is room, what a module registers acts on the portrait in turn. -/
theorem portrait_run (m : List Registration) (hr : r.Ordered) (ht : r.Tied)
    (hroom : (run (m.map .register) r).state.host.Roomy) :
    (run (m.map .register) r).result = .ok () ∧
      (run (m.map .register) r).state.portrait = m.foldl (fun P x => P.act x) r.portrait := by
  induction m generalizing r with
  | nil => exact ⟨rfl, rfl⟩
  | cons x m ih =>
    have hr' := hr.leads (keeps_register x r).leads
    have ht' := (ties_register x r).2 hr.placed ht
    have hfirst : (register x r).state.host.Roomy := by
      rw [List.map_cons, run_register, Op.state_andThen] at hroom
      split at hroom
      · exact hr'.roomy (keeps_run _ _).leads hroom
      · exact hroom
    obtain ⟨hok, hact⟩ := portrait_register hr ht x hfirst
    have hrun : run ((x :: m).map .register) r =
        ⟨(run (m.map .register) (register x r).state).result,
          (run (m.map .register) (register x r).state).state,
          (register x r).trace ++ (run (m.map .register) (register x r).state).trace⟩ := by
      rw [List.map_cons, run_register, Op.andThen, hok]
    rw [hrun] at hroom ⊢
    rw [List.foldl_cons, ← hact]
    exact ih hr' ht' hroom

theorem allocated_of_adopted {o : Outcome (Registry LocalHost) Unit} {entry : Entry} {name : String}
    {replaces : Option UInt32} {put : UInt32 → Analyzers → Analyzers}
    (hout : o.silent = r.adopted entry name replaces put) (kind : Kind) :
    o.state.host.allocated kind = r.host.allocated kind + if entry.kind = kind then 1 else 0 := by
  have hadopt := LocalHost.allocated_adopt entry name replaces r.host kind
  have hstate := congrArg Prod.snd hout
  change o.state = _ at hstate
  rw [hstate]
  unfold adopted
  split <;> exact hadopt

/-- A registration takes a number only of the kind of analyzer that it declares. -/
theorem allocated_register_le (x : Registration) (r : Registry LocalHost) (kind : Kind) :
    (register x r).state.host.allocated kind ≤
      r.host.allocated kind + if x.declares kind then 1 else 0 := by
  cases x with
  | parser parser => exact Nat.le_add_right _ _
  | protocol decl =>
    cases hentry : entryFor? decl.transport with
    | none =>
      rw [register, state_of_silent (silent_registerProtocol_of_none hentry r)]
      exact Nat.le_add_right _ _
    | some entry =>
      have hkind := kind_of_entryFor? hentry
      rw [register, allocated_of_adopted (silent_registerProtocol hentry r), hkind]
      simp [Registration.declares, Registration.analyzer?]
  | file decl =>
    have hkind : Entry.file.kind = .file := rfl
    rw [register, allocated_of_adopted (silent_registerFile decl r), hkind]
    simp [Registration.declares, Registration.analyzer?]
  | packet decl =>
    have hkind : Entry.packet.kind = .packet := rfl
    rw [register, allocated_of_adopted (silent_registerPacket decl r), hkind]
    simp [Registration.declares, Registration.analyzer?]
  | event name =>
    rw [register, state_of_silent (silent_registerEvent name r)]
    exact Nat.le_add_right _ _
  | enumType space id labels =>
    rw [register, state_of_silent (silent_registerEnumType space id labels r)]
    split <;> exact Nat.le_add_right _ _

theorem allocated_run_le (m : List Registration) (r : Registry LocalHost) (kind : Kind) :
    (run (m.map .register) r).state.host.allocated kind ≤
      r.host.allocated kind + m.countP (·.declares kind) := by
  induction m generalizing r with
  | nil => exact Nat.le_refl _
  | cons x m ih =>
    have hfirst := allocated_register_le x r kind
    have hrest := ih (register x r).state
    rw [List.map_cons, run_register, Op.state_andThen, List.countP_cons]
    split <;> omega

end Registry

end TrafficAnalyzers
