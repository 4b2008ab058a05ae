import TrafficAnalyzers.Proofs.Interchange.Registration
import TrafficAnalyzers.Proofs.Resolution.Outcome
/-!
Resolution seen on portraits. Main statement: of two registries with one portrait, either both can
be resolved or neither, and they have one portrait afterwards.
-/
namespace TrafficAnalyzers

section Filing

variable {κ α β : Type} [DecidableEq κ]

theorem filed_map (f : α → β) {key : α → κ} {key' : β → κ} (hf : ∀ a, key' (f a) = key a)
    (l : List α) (k : κ) : filed key' (l.map f) k = (filed key l k).map f := by
  rw [filed, List.filter_map, filed]
  congr 1
  exact List.filter_congr fun a _ => by simp [hf]

/-- What leaves alone what it changed does to each key as much as it does to it once. -/
theorem foldl_alter {g : List α → List α} (hg : ∀ l, g (g l) = g l) (ks : List κ)
    (f : κ → List α) (k : κ) :
    ks.foldl (fun f k => alter k g f) f k = if k ∈ ks then g (f k) else f k := by
  induction ks generalizing f with
  | nil => rfl
  | cons j ks ih =>
    rw [List.foldl_cons, ih]
    by_cases hj : k = j
    · subst hj
      simp [alter, hg]
    · simp [alter, hj]

end Filing

section Parsers

variable {parsers parsers' : List Parser}
  (h : filed Parser.name parsers = filed Parser.name parsers')

include h

/-- Which parser is found by a name depends on the parsers of that name only. -/
theorem parserOf_congr : parserOf parsers = parserOf parsers' := by
  funext name
  simp only [parserOf, ← List.head?_filter]
  exact congrArg (if name = "" then none else List.head? ·) (congrFun h name)

theorem parserFound_congr {name : String} (hfound : ParserFound parsers name) :
    ParserFound parsers' name := by
  rcases hfound with hempty | ⟨parser, hmem, hname⟩
  · exact .inl hempty
  · have hfiled : parser ∈ filed Parser.name parsers name :=
      List.mem_filter.mpr ⟨hmem, decide_eq_true hname⟩
    rw [h] at hfiled
    exact .inr ⟨parser, List.mem_of_mem_filter hfiled, hname⟩

end Parsers

namespace AnalyzerRecord

/-- Its parsers and its number can be found, and its ports have a transport at the host. -/
def Resolvable (h : LocalHost) (parsers : List Parser) : AnalyzerRecord → Prop
  | protocol p => p.decl.Resolvable h parsers
  | file p => p.decl.Resolvable h parsers
  | packet p => ParserFound parsers p.decl.parser

def resolved (parsers : List Parser) : AnalyzerRecord → AnalyzerRecord
  | protocol p => .protocol (p.resolved parsers)
  | file p => .file (p.resolved parsers)
  | packet p => .packet (p.resolved parsers)

/-- The ports that are bound for it. -/
def bindings (parsers : List Parser) :
    AnalyzerRecord → List (Option String × HostTransport × UInt16)
  | protocol p => (p.decl.portsWith parsers).filterMap fun port =>
    port.transport.host?.map fun transport => (some p.decl.name, transport, port.number)
  | file _ | packet _ => []

/-- The events that bind MIME types to it. -/
def events (parsers : List Parser) :
    AnalyzerRecord → List (String × List (Option String ⊕ String))
  | file p => (p.decl.mimeTypesWith parsers).map fun mimeType =>
    (mimeTypeEvent, [.inl (some p.decl.name), .inr mimeType])
  | protocol _ | packet _ => []

variable {parsers parsers' : List Parser}

@[simp] theorem name_resolved (d : AnalyzerRecord) : (d.resolved parsers).name = d.name := by
  cases d <;> rfl

theorem resolvable_untagged {h : LocalHost} {d : AnalyzerRecord} :
    d.untagged.Resolvable h parsers ↔ d.Resolvable h parsers := by
  cases d <;> rfl

theorem depict_resolved (h : LocalHost) (d : AnalyzerRecord) :
    h.depict (d.resolved parsers) = (h.depict d).map (·.resolved parsers) id := by
  cases d <;> rfl

section Congr

variable (hparsers : filed Parser.name parsers = filed Parser.name parsers')

include hparsers

theorem resolved_congr : resolved parsers = resolved parsers' := by
  have hp := parserOf_congr hparsers
  funext d
  cases d <;> simp only [resolved, ProtocolAnalyzer.resolved, FileAnalyzer.resolved,
    PacketAnalyzer.resolved, hp]

theorem bindings_congr : bindings parsers = bindings parsers' := by
  have hp := parserOf_congr hparsers
  funext d
  cases d <;> simp only [bindings, ProtocolDecl.portsWith, hp]

theorem events_congr : events parsers = events parsers' := by
  have hp := parserOf_congr hparsers
  funext d
  cases d <;> simp only [events, FileDecl.mimeTypesWith, hp]

theorem resolvable_congr {h h' : LocalHost}
    (hid : ∀ kind name, h.id? kind name = none ↔ h'.id? kind name = none) {d : AnalyzerRecord}
    (hd : d.Resolvable h parsers) : d.Resolvable h' parsers' := by
  cases d with
  | protocol p =>
    refine ⟨parserFound_congr hparsers hd.originator, parserFound_congr hparsers hd.responder,
      mt (hid _ _).mpr hd.known, fun port hport => hd.ports port ?_⟩
    rwa [ProtocolDecl.portsWith, ← parserOf_congr hparsers] at hport
  | file p => exact ⟨parserFound_congr hparsers hd.parser, mt (hid _ _).mpr hd.known⟩
  | packet p => exact parserFound_congr hparsers hd

end Congr

end AnalyzerRecord

namespace Analyzers

theorem resolvable_iff {h : LocalHost} {parsers : List Parser} {a : Analyzers} :
    a.Resolvable h parsers ↔ ∀ kind, ∀ d ∈ a.records kind, d.Resolvable h parsers := by
  constructor
  · intro ha kind
    cases kind
    · exact List.forall_mem_map.mpr ha.protocol
    · exact List.forall_mem_map.mpr ha.file
    · exact List.forall_mem_map.mpr ha.packet
  · intro ha
    exact ⟨fun p hp => ha .protocol (.protocol p) (List.mem_map_of_mem hp),
      fun p hp => ha .file (.file p) (List.mem_map_of_mem hp),
      fun p hp => ha .packet (.packet p) (List.mem_map_of_mem hp)⟩

theorem records_resolved (parsers : List Parser) (a : Analyzers) (kind : Kind) :
    (a.resolved parsers).records kind = (a.records kind).map (·.resolved parsers) := by
  cases kind <;> simp only [records, resolved, SlotTable.toList_map, List.map_map] <;> rfl

end Analyzers

/-- A binding of an analyzer is seen with its name. -/
theorem ProtocolDecl.Resolvable.map_bindings {h : LocalHost} {descriptor? : Tag → Option Descriptor}
    (hs : (h.roster descriptor?).Sound) {parsers : List Parser} {p : ProtocolAnalyzer}
    (hp : p.decl.Resolvable h parsers) : (p.decl.bindings h parsers).map h.depictBinding =
      (AnalyzerRecord.protocol p).bindings parsers := by
  obtain ⟨id, hid⟩ := Option.ne_none_iff_exists'.mp hp.known
  have hname := LocalHost.nameOf?_of_id? hs hid
  rw [ProtocolDecl.bindings, hid, Option.map_some, Option.getD_some, List.map_filterMap,
    AnalyzerRecord.bindings]
  congr 1
  funext port
  rw [bindingOf?, Option.map_map]
  congr 1
  funext transport
  rw [Function.comp_apply, LocalHost.depictBinding, hname]

theorem FileDecl.Resolvable.map_events {h : LocalHost} {descriptor? : Tag → Option Descriptor}
    (hs : (h.roster descriptor?).Sound) {parsers : List Parser} {p : FileAnalyzer}
    (hp : p.decl.Resolvable h parsers) : (p.decl.events h parsers).map h.depictEvent =
      (AnalyzerRecord.file p).events parsers := by
  obtain ⟨id, hid⟩ := Option.ne_none_iff_exists'.mp hp.known
  have hname := LocalHost.nameOf?_of_id? hs hid
  rw [FileDecl.events, hid, Option.map_some, Option.getD_some, List.map_map, AnalyzerRecord.events]
  congr 1
  funext mimeType
  simp [LocalHost.depictEvent, mimeTypeBinding, hname]

theorem filled_filled (i : Ident) : i.filled.filled = i.filled := by
  cases i with
  | mk name exported type => cases type <;> rfl

namespace Registry

variable {r r' : Registry LocalHost}

/-- Placeholders come to what is filed under the events' names. -/
theorem filed_filled (events : List (String × Nat)) (h : LocalHost)
    (hevents : ∀ e ∈ events, h.identIndex? e.1 = some e.2) :
    filed Ident.name (events.foldl (fun is e => is.modify e.2 Ident.filled) h.idents) =
      (events.map (·.1)).foldl (fun f k => alter k (List.modifyHead Ident.filled) f)
        (filed Ident.name h.idents) := by
  induction events generalizing h with
  | nil => rfl
  | cons e events ih =>
    obtain ⟨he, hevents⟩ := List.forall_mem_cons.mp hevents
    have hnames : (h.idents.modify e.2 Ident.filled).map (·.name) = h.idents.map (·.name) :=
      map_modify_eq fun _ => rfl
    have hkept : LocalHost.identIndex? { h with idents := h.idents.modify e.2 Ident.filled } =
        h.identIndex? := LocalHost.identIndex?_congr hnames
    rw [List.foldl_cons, List.map_cons, List.foldl_cons,
      ← filed_modify (f := Ident.filled) (fun _ => rfl) he]
    exact ih { h with idents := _ } fun e he => (congrFun hkept e.1).trans (hevents e he)

/-- Of each event's name, the first identifier has a type once placeholders are assigned. -/
theorem filed_placeholders (ht : r.Tied) (name : String) :
    filed Ident.name r.placeholders name =
      if name ∈ r.events.keys then (filed Ident.name r.host.idents name).modifyHead Ident.filled
      else filed Ident.name r.host.idents name := by
  have hidem (is : List Ident) :
      (is.modifyHead Ident.filled).modifyHead Ident.filled = is.modifyHead Ident.filled := by
    cases is <;> simp [filled_filled]
  rw [placeholders, filed_filled _ r.host ht.events, foldl_alter hidem]
  rfl

section Same

variable (hs : r.roster.Sound) (hs' : r'.roster.Sound) (hsame : r.portrait = r'.portrait)

include hsame

theorem perm_records (kind : Kind) : ((r.analyzers.records kind).map r.host.depict).Perm
    ((r'.analyzers.records kind).map r'.host.depict) := by
  have hfiled : filed (·.1.name) ((r.analyzers.records kind).map r.host.depict) =
      filed (·.1.name) ((r'.analyzers.records kind).map r'.host.depict) :=
    funext fun name => congrFun (congrArg Portrait.records hsame) (kind, name)
  exact perm_of_filed hfiled

include hs hs'

theorem known_iff (kind : Kind) (name : String) :
    r.host.id? kind name = none ↔ r'.host.id? kind name = none := by
  rw [← Option.isNone_iff_eq_none, ← Option.isNone_iff_eq_none, ← isEmpty_components hs,
    ← isEmpty_components hs', hsame]

/-- Of registries with one portrait, either both can be resolved or neither. -/
theorem resolvable_of_portrait (hr : r.analyzers.Resolvable r.host r.runtime.parsers) :
    r'.analyzers.Resolvable r'.host r'.runtime.parsers := by
  rw [Analyzers.resolvable_iff] at hr ⊢
  intro kind d hd
  have hmem := (perm_records hsame kind).mem_iff.mpr (List.mem_map_of_mem hd)
  obtain ⟨e, he, hdepict⟩ := List.mem_map.mp hmem
  have huntagged : e.untagged = d.untagged := congrArg Prod.fst hdepict
  have hparsers := congrArg Portrait.parsers hsame
  have hresolvable := AnalyzerRecord.resolvable_congr hparsers (known_iff hs hs' hsame)
    (hr kind e he)
  rwa [← AnalyzerRecord.resolvable_untagged, huntagged, AnalyzerRecord.resolvable_untagged]
    at hresolvable

end Same

/-- What is resolved keeps its name and the name of what it replaces. -/
theorem records_withResolved (parsers : List Parser) (r : Registry LocalHost)
    (k : Kind × String) : (r.withResolved parsers).portrait.records k =
      (r.portrait.records k).map (Prod.map (·.resolved parsers) id) := by
  have hdepict : ((r.analyzers.resolved parsers).records k.1).map r.host.depict =
      ((r.analyzers.records k.1).map r.host.depict).map (Prod.map (·.resolved parsers) id) := by
    rw [Analyzers.records_resolved, List.map_map, List.map_map]
    exact List.map_congr_left fun d _ => AnalyzerRecord.depict_resolved r.host d
  change filed (·.1.name) (((r.analyzers.resolved parsers).records k.1).map r.host.depict) k.2 = _
  rw [hdepict]
  refine filed_map (Prod.map (AnalyzerRecord.resolved parsers) id) ?_ _ _
  exact fun e => AnalyzerRecord.name_resolved e.1

section Bound

variable {parsers : List Parser} (hs : r.roster.Sound)
  (hr : r.analyzers.Resolvable r.host parsers)

include hs hr

theorem bindings_withResolved : (r.withResolved parsers).portrait.bindings =
    r.portrait.bindings + ((r.analyzers.records .protocol).map r.host.depict).flatMap
      (·.1.bindings parsers) := by
  have hnew : (r.analyzers.protocol.toList.flatMap fun p => p.decl.bindings r.host parsers).map
      r.host.depictBinding = ((r.analyzers.records .protocol).map r.host.depict).flatMap
        (·.1.bindings parsers) := by
    rw [List.map_flatMap, Analyzers.records, List.flatMap_map, List.flatMap_map]
    exact List.flatMap_congr fun p hp => (hr.protocol p hp).map_bindings hs
  rw [← hnew]
  exact congrArg Multiset.ofList List.map_append

theorem queued_withResolved : (r.withResolved parsers).portrait.queued =
    r.portrait.queued + ((r.analyzers.records .file).map r.host.depict).flatMap
      (·.1.events parsers) := by
  have hnew : (r.analyzers.file.toList.flatMap fun p => p.decl.events r.host parsers).map
      r.host.depictEvent = ((r.analyzers.records .file).map r.host.depict).flatMap
        (·.1.events parsers) := by
    rw [List.map_flatMap, Analyzers.records, List.flatMap_map, List.flatMap_map]
    exact List.flatMap_congr fun p hp => (hr.file p hp).map_events hs
  rw [← hnew]
  exact congrArg Multiset.ofList List.map_append

end Bound

/-- Registries with one portrait have one portrait when they are resolved. -/
theorem portrait_resolved_congr (hs : r.roster.Sound) (hs' : r'.roster.Sound) (ht : r.Tied)
    (ht' : r'.Tied) (hsame : r.portrait = r'.portrait)
    (hr : r.analyzers.Resolvable r.host r.runtime.parsers) :
    (r.prepared.withResolved r.runtime.parsers).portrait =
      (r'.prepared.withResolved r'.runtime.parsers).portrait := by
  have hr' := resolvable_of_portrait hs hs' hsame hr
  obtain ⟨hrest, hcomponents, hrecords, hlocations, hparsers, hidents, hevents, hhandlers,
    hbindings, hqueued, -, hfailures⟩ := Portrait.ext_iff.mp hsame
  have hprepared {q : Registry LocalHost} (hq : q.analyzers.Resolvable q.host q.runtime.parsers) :
      q.prepared.analyzers.Resolvable q.prepared.host q.runtime.parsers :=
    have hcomponents : q.host.components = q.prepared.host.components := rfl
    Analyzers.resolvable_of_components hcomponents hq
  ext : 1
  case rest => exact hrest
  case components => exact hcomponents
  case records =>
    funext k
    rw [records_withResolved, records_withResolved, AnalyzerRecord.resolved_congr hparsers]
    exact congrArg (List.map _) (congrFun hrecords k)
  case locations => exact hlocations
  case parsers => exact hparsers
  case idents =>
    funext name
    have hname : name ∈ r.events.keys ↔ name ∈ r'.events.keys := Set.ext_iff.mp hevents name
    have hfiled : filed Ident.name r.host.idents name = filed Ident.name r'.host.idents name :=
      congrFun hidents name
    change filed Ident.name r.placeholders name = filed Ident.name r'.placeholders name
    rw [filed_placeholders ht, filed_placeholders ht', if_congr hname rfl rfl, hfiled]
  case events => exact hevents
  case handlers => exact hhandlers
  case bindings =>
    have hperm := (perm_records hsame .protocol).flatMap_right
      (·.1.bindings r'.runtime.parsers)
    rw [bindings_withResolved (r := r.prepared) hs (hprepared hr),
      bindings_withResolved (r := r'.prepared) hs' (hprepared hr'),
      AnalyzerRecord.bindings_congr hparsers]
    exact congrArg₂ (· + ·) hbindings (Multiset.coe_eq_coe.mpr hperm)
  case queued =>
    have hperm := (perm_records hsame .file).flatMap_right (·.1.events r'.runtime.parsers)
    rw [queued_withResolved (r := r.prepared) hs (hprepared hr),
      queued_withResolved (r := r'.prepared) hs' (hprepared hr'),
      AnalyzerRecord.events_congr hparsers]
    exact congrArg₂ (· + ·) hqueued (Multiset.coe_eq_coe.mpr hperm)
  case options =>
    have hoptions : Plugin.runtimeOptions r.host.rest = Plugin.runtimeOptions r'.host.rest :=
      congrArg Plugin.runtimeOptions hrest
    exact congrArg some hoptions
  case failures => exact hfailures

end Registry

end TrafficAnalyzers
