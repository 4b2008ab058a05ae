import Mathlib.Data.List.Basic
import TrafficAnalyzers.Proofs.Resolution.Schedule
/-!
What the declarations of analyzers come to at a host: when they can all be resolved, and which ports
and MIME types are bound then. Main statement: the schedule of a resolution has no fault exactly if
every analyzer can be resolved, and its tasks then bind each port and MIME type once.
-/
namespace TrafficAnalyzers

/-- The first parser of a name; the empty name asks for none. -/
def parserOf (parsers : List Parser) (name : String) : Option Parser :=
  if name = "" then none else parsers.find? (·.name = name)

/-- The empty name is always found. -/
def ParserFound (parsers : List Parser) (name : String) : Prop :=
  name = "" ∨ ∃ parser ∈ parsers, parser.name = name

/-- The declared ports, then those of the parser for the responder's side. -/
def ProtocolDecl.portsWith (d : ProtocolDecl) (parsers : List Parser) : List Port :=
  d.ports ++ ((parserOf parsers d.responder).map Parser.responderPorts).getD []

/-- The declared MIME types, then those of the parser. -/
def FileDecl.mimeTypesWith (d : FileDecl) (parsers : List Parser) : List String :=
  d.mimeTypes ++ ((parserOf parsers d.parser).map (·.mimeTypes)).getD []

structure ProtocolDecl.Resolvable (h : LocalHost) (parsers : List Parser) (d : ProtocolDecl) :
    Prop where
  originator : ParserFound parsers d.originator
  responder : ParserFound parsers d.responder
  known : h.id? .protocol d.name ≠ none
  ports : ∀ port ∈ d.portsWith parsers, port.transport ≠ .undefined

structure FileDecl.Resolvable (h : LocalHost) (parsers : List Parser) (d : FileDecl) : Prop where
  parser : ParserFound parsers d.parser
  known : h.id? .file d.name ≠ none

/-- Every analyzer's parsers and number can be found, and all ports have a transport at the host. -/
structure Analyzers.Resolvable (h : LocalHost) (parsers : List Parser) (a : Analyzers) : Prop where
  protocol : ∀ p ∈ a.protocol.toList, p.decl.Resolvable h parsers
  file : ∀ p ∈ a.file.toList, p.decl.Resolvable h parsers
  packet : ∀ p ∈ a.packet.toList, ParserFound parsers p.decl.parser

/-- Which analyzers can be resolved depends on the components of the host only. -/
theorem Analyzers.resolvable_of_components {h h' : LocalHost} (hc : h.components = h'.components)
    {parsers : List Parser} {a : Analyzers} (ha : a.Resolvable h parsers) :
    a.Resolvable h' parsers where
  protocol p hp :=
    have hr := ha.protocol p hp
    ⟨hr.originator, hr.responder, LocalHost.id?_congr hc .protocol p.decl.name ▸ hr.known, hr.ports⟩
  file p hp :=
    have hr := ha.file p hp
    ⟨hr.parser, LocalHost.id?_congr hc .file p.decl.name ▸ hr.known⟩
  packet := ha.packet

/-- A port as it is bound to an analyzer; one of an undefined transport is not. -/
def bindingOf? (id : UInt32) (port : Port) : Option PortBinding :=
  port.transport.host?.map fun transport => ⟨id, transport, port.number⟩

/-- The event that binds a MIME type to an analyzer. -/
def mimeTypeBinding (id : UInt32) (mimeType : String) : QueuedEvent :=
  ⟨mimeTypeEvent, [.fileTag id, .text mimeType]⟩

/-- The bindings that a declaration comes to, for the number that the host finds by its name. -/
def ProtocolDecl.bindings (h : LocalHost) (parsers : List Parser) (d : ProtocolDecl) :
    List PortBinding :=
  ((h.id? .protocol d.name).map fun id => (d.portsWith parsers).filterMap (bindingOf? id)).getD []

/-- The events that a declaration comes to, for the number that the host finds by its name. -/
def FileDecl.events (h : LocalHost) (parsers : List Parser) (d : FileDecl) : List QueuedEvent :=
  ((h.id? .file d.name).map fun id => (d.mimeTypesWith parsers).map (mimeTypeBinding id)).getD []

/-- All bindings of a declaration name the same analyzer. -/
theorem ProtocolDecl.id?_of_mem_bindings {h : LocalHost} {parsers : List Parser} {d : ProtocolDecl}
    {b : PortBinding} (hb : b ∈ d.bindings h parsers) : h.id? .protocol d.name = some b.id := by
  unfold ProtocolDecl.bindings at hb
  cases hid : h.id? .protocol d.name with
  | none => simp [hid] at hb
  | some id =>
    simp only [hid, Option.map_some, Option.getD_some, List.mem_filterMap, bindingOf?,
      Option.map_eq_some_iff] at hb
    obtain ⟨port, -, transport, -, rfl⟩ := hb
    rfl

theorem FileDecl.id?_of_mem_events {h : LocalHost} {parsers : List Parser} {d : FileDecl}
    {e : QueuedEvent} (he : e ∈ d.events h parsers) :
    ∃ id mimeType, h.id? .file d.name = some id ∧ e = mimeTypeBinding id mimeType := by
  unfold FileDecl.events at he
  cases hid : h.id? .file d.name with
  | none => simp [hid] at he
  | some id =>
    simp only [hid, Option.map_some, Option.getD_some, List.mem_map] at he
    obtain ⟨mimeType, -, rfl⟩ := he
    exact ⟨id, mimeType, rfl, rfl⟩

namespace Registry

theorem parserNamed_ok_iff {analyzer name : String} {parsers : List Parser}
    {parser : Option Parser} : parserNamed analyzer name parsers = .ok parser ↔
      ParserFound parsers name ∧ parser = parserOf parsers name := by
  unfold parserNamed ParserFound parserOf
  split
  next h =>
    simp only [h, true_or, true_and, Except.ok.injEq]
    exact eq_comm
  next h =>
    cases hfind : parsers.find? (·.name = name) with
    | none =>
      have hnone : ¬ ∃ x ∈ parsers, x.name = name := by simpa using hfind
      simp [h, hnone]
    | some found =>
      have hname : found.name = name := by simpa using List.find?_some hfind
      have hex : ∃ x ∈ parsers, x.name = name := ⟨found, List.mem_of_find?_eq_some hfind, hname⟩
      simp only [Except.ok.injEq, hex, or_true, true_and]
      exact eq_comm

theorem faultless_cons {t : Task} {ts : List Task} :
    Faultless (t :: ts) ↔ t.fault? = none ∧ Faultless ts := List.forall_mem_cons

/-- The tasks after a parser are those for the parser found. -/
theorem faultless_withParser {analyzer name : String} {parsers : List Parser}
    {tasks : Option Parser → List Task} : Faultless (withParser analyzer name parsers tasks) ↔
      ParserFound parsers name ∧ Faultless (tasks (parserOf parsers name)) := by
  unfold withParser
  cases hp : parserNamed analyzer name parsers with
  | ok parser =>
    obtain ⟨hfound, rfl⟩ := parserNamed_ok_iff.mp hp
    simp [hfound]
  | error fault =>
    have hnot : ¬ ParserFound parsers name := fun hfound => by
      simp [parserNamed_ok_iff.mpr ⟨hfound, rfl⟩] at hp
    simp [hnot, Faultless, Task.fault?]

theorem withParser_of_found {analyzer name : String} {parsers : List Parser}
    (h : ParserFound parsers name) (tasks : Option Parser → List Task) :
    withParser analyzer name parsers tasks = tasks (parserOf parsers name) := by
  rw [withParser, parserNamed_ok_iff.mpr ⟨h, rfl⟩]

theorem faultless_withId {id : Option UInt32} {analyzer : String} {tasks : UInt32 → List Task} :
    Faultless (withId id analyzer tasks) ↔ ∃ i, id = some i ∧ Faultless (tasks i) := by
  cases id with
  | none => simp [withId, Faultless, Task.fault?]
  | some i => simp [withId]

theorem fault?_portTask {id : UInt32} {port : Port} :
    (portTask id port).fault? = none ↔ port.transport ≠ .undefined := by
  cases h : port.transport <;> simp [portTask, h, Transport.host?, Task.fault?]

theorem faultless_protocolTasks {h : LocalHost} {parsers : List Parser} {p : ProtocolAnalyzer} :
    Faultless (protocolTasks h parsers p) ↔ p.decl.Resolvable h parsers := by
  simp only [protocolTasks, faultless_withParser, faultless_cons, faultless_withId]
  constructor
  · rintro ⟨ho, -, hr, -, id, hid, hports⟩
    refine ⟨ho, hr, by simp [hid], fun port hport => ?_⟩
    exact fault?_portTask.mp (hports _ (List.mem_map_of_mem hport))
  · rintro ⟨ho, hr, hknown, hports⟩
    obtain ⟨id, hid⟩ := Option.ne_none_iff_exists'.mp hknown
    exact ⟨ho, rfl, hr, rfl, id, hid,
      List.forall_mem_map.mpr fun port hport => fault?_portTask.mpr (hports port hport)⟩

theorem faultless_fileTasks {h : LocalHost} {parsers : List Parser} {p : FileAnalyzer} :
    Faultless (fileTasks h parsers p) ↔ p.decl.Resolvable h parsers := by
  simp only [fileTasks, faultless_withParser, faultless_cons, faultless_withId]
  constructor
  · rintro ⟨hp, -, id, hid, -⟩
    exact ⟨hp, by simp [hid]⟩
  · rintro ⟨hp, hknown⟩
    obtain ⟨id, hid⟩ := Option.ne_none_iff_exists'.mp hknown
    exact ⟨hp, rfl, id, hid, List.forall_mem_map.mpr fun _ _ => rfl⟩

theorem faultless_packetTasks {parsers : List Parser} {p : PacketAnalyzer} :
    Faultless (packetTasks parsers p) ↔ ParserFound parsers p.decl.parser := by
  rw [packetTasks, faultless_withParser]
  simp [Faultless, Task.fault?]

/-- A resolution meets no fault exactly if all analyzers can be resolved. -/
theorem faultless_schedule {h : LocalHost} {parsers : List Parser} {a : Analyzers} :
    Faultless (schedule h parsers a) ↔ a.Resolvable h parsers := by
  unfold schedule Faultless
  simp only [List.forall_mem_append, List.forall_mem_flatMap]
  constructor
  · rintro ⟨hp, hf, hk⟩
    exact ⟨fun p hmem => faultless_protocolTasks.mp (hp p hmem),
      fun p hmem => faultless_fileTasks.mp (hf p hmem),
      fun p hmem => faultless_packetTasks.mp (hk p hmem)⟩
  · rintro ⟨hp, hf, hk⟩
    exact ⟨fun p hmem => faultless_protocolTasks.mpr (hp p hmem),
      fun p hmem => faultless_fileTasks.mpr (hf p hmem),
      fun p hmem => faultless_packetTasks.mpr (hk p hmem)⟩

theorem binding?_portTasks (id : UInt32) (ports : List Port) :
    (ports.map (portTask id)).filterMap Task.binding? = ports.filterMap (bindingOf? id) := by
  rw [List.filterMap_map]
  congr 1
  funext port
  cases h : port.transport <;> simp [portTask, bindingOf?, h, Transport.host?, Task.binding?]

theorem event?_portTasks (id : UInt32) (ports : List Port) :
    (ports.map (portTask id)).filterMap Task.event? = [] := by
  rw [List.filterMap_map, List.filterMap_eq_nil_iff]
  intro port _
  cases h : port.transport <;> simp [portTask, h, Transport.host?, Task.event?]

theorem binding?_mimeTypeTasks (id : UInt32) (mimeTypes : List String) :
    (mimeTypes.map (mimeTypeTask id)).filterMap Task.binding? = [] := by
  rw [List.filterMap_map, List.filterMap_eq_nil_iff]
  exact fun mimeType _ => rfl

theorem event?_mimeTypeTasks (id : UInt32) (mimeTypes : List String) :
    (mimeTypes.map (mimeTypeTask id)).filterMap Task.event? =
      mimeTypes.map (mimeTypeBinding id) := by
  rw [List.filterMap_map, ← List.filterMap_eq_map]
  rfl

/-- Without a fault, a protocol analyzer's record is kept twice before its ports are bound. -/
theorem protocolTasks_eq {h : LocalHost} {parsers : List Parser} {p : ProtocolAnalyzer}
    (hp : p.decl.Resolvable h parsers) {id : UInt32} (hid : h.id? .protocol p.decl.name = some id) :
    protocolTasks h parsers p =
      .protocol { p with originator := parserOf parsers p.decl.originator } ::
        .protocol { p with
          originator := parserOf parsers p.decl.originator
          responder := parserOf parsers p.decl.responder } ::
          (p.decl.portsWith parsers).map (portTask id) := by
  rw [protocolTasks, withParser_of_found hp.originator, withParser_of_found hp.responder, hid]
  rfl

theorem fileTasks_eq {h : LocalHost} {parsers : List Parser} {p : FileAnalyzer}
    (hp : p.decl.Resolvable h parsers) {id : UInt32} (hid : h.id? .file p.decl.name = some id) :
    fileTasks h parsers p = .file { p with parser := parserOf parsers p.decl.parser } ::
      (p.decl.mimeTypesWith parsers).map (mimeTypeTask id) := by
  rw [fileTasks, withParser_of_found hp.parser, hid]
  rfl

theorem packetTasks_eq {parsers : List Parser} {p : PacketAnalyzer}
    (hp : ParserFound parsers p.decl.parser) : packetTasks parsers p =
      [.packet { p with parser := parserOf parsers p.decl.parser }] := by
  rw [packetTasks, withParser_of_found hp]

theorem protocolTasks_of_resolvable {h : LocalHost} {parsers : List Parser} {p : ProtocolAnalyzer}
    (hp : p.decl.Resolvable h parsers) :
    (protocolTasks h parsers p).filterMap Task.binding? = p.decl.bindings h parsers ∧
      (protocolTasks h parsers p).filterMap Task.event? = [] := by
  obtain ⟨id, hid⟩ := Option.ne_none_iff_exists'.mp hp.known
  rw [protocolTasks_eq hp hid]
  constructor
  · simp only [List.filterMap_cons, Task.binding?, ProtocolDecl.bindings, hid, Option.map_some,
      Option.getD_some]
    exact binding?_portTasks id _
  · exact event?_portTasks id _

theorem fileTasks_of_resolvable {h : LocalHost} {parsers : List Parser} {p : FileAnalyzer}
    (hp : p.decl.Resolvable h parsers) :
    (fileTasks h parsers p).filterMap Task.binding? = [] ∧
      (fileTasks h parsers p).filterMap Task.event? = p.decl.events h parsers := by
  obtain ⟨id, hid⟩ := Option.ne_none_iff_exists'.mp hp.known
  rw [fileTasks_eq hp hid]
  constructor
  · exact binding?_mimeTypeTasks id _
  · simp only [List.filterMap_cons, Task.event?, FileDecl.events, hid, Option.map_some,
      Option.getD_some]
    exact event?_mimeTypeTasks id _

theorem packetTasks_of_found {parsers : List Parser} {p : PacketAnalyzer}
    (hp : ParserFound parsers p.decl.parser) :
    (packetTasks parsers p).filterMap Task.binding? = [] ∧
      (packetTasks parsers p).filterMap Task.event? = [] := by
  rw [packetTasks_eq hp]
  exact ⟨rfl, rfl⟩

/-- A resolution without a fault binds every port and queues every MIME type once. -/
theorem schedule_of_resolvable {h : LocalHost} {parsers : List Parser} {a : Analyzers}
    (ha : a.Resolvable h parsers) :
    (schedule h parsers a).filterMap Task.binding? =
        a.protocol.toList.flatMap (fun p => p.decl.bindings h parsers) ∧
      (schedule h parsers a).filterMap Task.event? =
        a.file.toList.flatMap fun p => p.decl.events h parsers := by
  have hprotocol (p) (hp : p ∈ a.protocol.toList) :=
    protocolTasks_of_resolvable (ha.protocol p hp)
  have hfile (p) (hp : p ∈ a.file.toList) := fileTasks_of_resolvable (ha.file p hp)
  have hpacket (p) (hp : p ∈ a.packet.toList) := packetTasks_of_found (ha.packet p hp)
  simp only [schedule, List.filterMap_append, List.filterMap_flatMap]
  constructor
  · rw [List.flatMap_congr fun p hp => (hprotocol p hp).1,
      List.flatMap_eq_nil_iff.mpr fun p hp => (hfile p hp).1,
      List.flatMap_eq_nil_iff.mpr fun p hp => (hpacket p hp).1, List.append_nil, List.append_nil]
  · rw [List.flatMap_eq_nil_iff.mpr fun p hp => (hprotocol p hp).2,
      List.flatMap_congr fun p hp => (hfile p hp).2,
      List.flatMap_eq_nil_iff.mpr fun p hp => (hpacket p hp).2, List.nil_append, List.append_nil]

end Registry

end TrafficAnalyzers
