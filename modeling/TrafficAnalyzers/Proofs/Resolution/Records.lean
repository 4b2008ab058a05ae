import TrafficAnalyzers.Proofs.Resolution.Bindings
import TrafficAnalyzers.Proofs.Roster
/-!
What a resolution does to the records of analyzers. Main statements: it changes nothing but their
parsers, also one that stops at a fault; and without a fault every record has the parsers of its
names, whatever it had before.
-/
namespace TrafficAnalyzers

/-- The record without its parsers. -/
def ProtocolAnalyzer.unresolved (p : ProtocolAnalyzer) : ProtocolAnalyzer :=
  { p with originator := none, responder := none }

def FileAnalyzer.unresolved (p : FileAnalyzer) : FileAnalyzer := { p with parser := none }

def PacketAnalyzer.unresolved (p : PacketAnalyzer) : PacketAnalyzer := { p with parser := none }

/-- The record with the parsers that are found by its names. -/
def ProtocolAnalyzer.resolved (parsers : List Parser) (p : ProtocolAnalyzer) : ProtocolAnalyzer :=
  { p with
    originator := parserOf parsers p.decl.originator
    responder := parserOf parsers p.decl.responder }

def FileAnalyzer.resolved (parsers : List Parser) (p : FileAnalyzer) : FileAnalyzer :=
  { p with parser := parserOf parsers p.decl.parser }

def PacketAnalyzer.resolved (parsers : List Parser) (p : PacketAnalyzer) : PacketAnalyzer :=
  { p with parser := parserOf parsers p.decl.parser }

namespace Analyzers

def unresolved (a : Analyzers) : Analyzers :=
  ⟨a.protocol.map (·.unresolved), a.file.map (·.unresolved), a.packet.map (·.unresolved)⟩

def resolved (parsers : List Parser) (a : Analyzers) : Analyzers :=
  ⟨a.protocol.map (·.resolved parsers), a.file.map (·.resolved parsers),
    a.packet.map (·.resolved parsers)⟩

theorem resolved_unresolved (parsers : List Parser) (a : Analyzers) :
    a.unresolved.resolved parsers = a.resolved parsers := by
  simp only [resolved, unresolved, SlotTable.map_map]
  rfl

theorem descriptor?_unresolved (a : Analyzers) : a.unresolved.descriptor? = a.descriptor? := by
  funext ⟨kind, id⟩
  cases kind <;>
    simp only [descriptor?, unresolved, SlotTable.get?_map, Option.map_map, Function.comp_def] <;>
    rfl

variable {h : LocalHost} {parsers : List Parser} {a b : Analyzers}

theorem resolvable_unresolved : a.unresolved.Resolvable h parsers ↔ a.Resolvable h parsers := by
  constructor
  · rintro ⟨hp, hf, hk⟩
    simp only [unresolved, SlotTable.toList_map, List.forall_mem_map] at hp hf hk
    exact ⟨hp, hf, hk⟩
  · rintro ⟨hp, hf, hk⟩
    refine ⟨?_, ?_, ?_⟩ <;> simp only [unresolved, SlotTable.toList_map, List.forall_mem_map]
    · exact hp
    · exact hf
    · exact hk

/-- Which analyzers can be resolved, and what is bound for them then, does not depend on the parsers
that records had before. -/
theorem resolvable_congr (hab : a.unresolved = b.unresolved) :
    a.Resolvable h parsers ↔ b.Resolvable h parsers := by
  rw [← resolvable_unresolved, hab, resolvable_unresolved]

theorem resolved_congr (hab : a.unresolved = b.unresolved) :
    a.resolved parsers = b.resolved parsers := by
  rw [← resolved_unresolved, hab, resolved_unresolved]

theorem flatMap_protocol_congr {α : Type} (hab : a.unresolved = b.unresolved)
    (f : ProtocolDecl → List α) :
    a.protocol.toList.flatMap (fun p => f p.decl) = b.protocol.toList.flatMap fun p => f p.decl :=
  SlotTable.flatMap_toList_of_map_eq (congrArg protocol hab) fun _ => rfl

theorem flatMap_file_congr {α : Type} (hab : a.unresolved = b.unresolved)
    (f : FileDecl → List α) :
    a.file.toList.flatMap (fun p => f p.decl) = b.file.toList.flatMap fun p => f p.decl :=
  SlotTable.flatMap_toList_of_map_eq (congrArg file hab) fun _ => rfl

end Analyzers

namespace Registry

namespace Task

/-- The task keeps no other record than one that differs from the old one in its parsers only. -/
def Renews (a : Analyzers) : Task → Prop
  | protocol p => ∃ old, a.protocol.get? p.id = some old ∧ p.unresolved = old.unresolved
  | file p => ∃ old, a.file.get? p.id = some old ∧ p.unresolved = old.unresolved
  | packet p => ∃ old, a.packet.get? p.id = some old ∧ p.unresolved = old.unresolved
  | bind _ | queue _ | stop _ => True

variable {a : Analyzers} {t : Task}

theorem renews_congr {b : Analyzers} (hab : a.unresolved = b.unresolved) (ht : t.Renews a) :
    t.Renews b := by
  cases t with
  | protocol p =>
    obtain ⟨old, hold, hsame⟩ := ht
    obtain ⟨new, hnew, heq⟩ :=
      SlotTable.exists_get?_of_map_eq (congrArg Analyzers.protocol hab) hold
    exact ⟨new, hnew, hsame.trans heq⟩
  | file p =>
    obtain ⟨old, hold, hsame⟩ := ht
    obtain ⟨new, hnew, heq⟩ :=
      SlotTable.exists_get?_of_map_eq (congrArg Analyzers.file hab) hold
    exact ⟨new, hnew, hsame.trans heq⟩
  | packet p =>
    obtain ⟨old, hold, hsame⟩ := ht
    obtain ⟨new, hnew, heq⟩ :=
      SlotTable.exists_get?_of_map_eq (congrArg Analyzers.packet hab) hold
    exact ⟨new, hnew, hsame.trans heq⟩
  | bind | queue | stop => trivial

theorem unresolved_store (ha : a.Placed) (ht : t.Renews a) :
    (t.store a).unresolved = a.unresolved := by
  cases t with
  | protocol p =>
    obtain ⟨old, hold, hsame⟩ := ht
    simp only [store, Analyzers.unresolved, ha.protocol.map_insert hold hsame]
  | file p =>
    obtain ⟨old, hold, hsame⟩ := ht
    simp only [store, Analyzers.unresolved, ha.file.map_insert hold hsame]
  | packet p =>
    obtain ⟨old, hold, hsame⟩ := ht
    simp only [store, Analyzers.unresolved, ha.packet.map_insert hold hsame]
  | bind | queue | stop => rfl

theorem placed_store (ha : a.Placed) : (t.store a).Placed := by
  cases t with
  | protocol p => exact ha.insertProtocol p
  | file p => exact ha.insertFile p
  | packet p => exact ha.insertPacket p
  | bind | queue | stop => exact ha

theorem foldl_store {ts : List Task} (ha : a.Placed) (ht : ∀ t ∈ ts, t.Renews a) :
    (ts.foldl (fun a t => t.store a) a).Placed ∧
      (ts.foldl (fun a t => t.store a) a).unresolved = a.unresolved := by
  induction ts generalizing a with
  | nil => exact ⟨ha, rfl⟩
  | cons t ts ih =>
    have hsame := unresolved_store ha (ht t List.mem_cons_self)
    obtain ⟨hplaced, hrest⟩ := ih (placed_store ha) fun u hu =>
      renews_congr hsame.symm (ht u (List.mem_cons_of_mem t hu))
    exact ⟨hplaced, hrest.trans hsame⟩

end Task

theorem forall_withParser {P : Task → Prop} {analyzer name : String} {parsers : List Parser}
    {tasks : Option Parser → List Task} (hstop : ∀ fault, P (.stop fault))
    (h : ∀ parser, ∀ t ∈ tasks parser, P t) :
    ∀ t ∈ withParser analyzer name parsers tasks, P t := by
  unfold withParser
  cases parserNamed analyzer name parsers with
  | ok parser => exact h parser
  | error fault => exact fun t ht => List.mem_singleton.mp ht ▸ hstop fault

theorem forall_withId {P : Task → Prop} {id : Option UInt32} {analyzer : String}
    {tasks : UInt32 → List Task} (hstop : ∀ fault, P (.stop fault))
    (h : ∀ i, id = some i → ∀ t ∈ tasks i, P t) : ∀ t ∈ withId id analyzer tasks, P t := by
  cases id with
  | some id => exact h id rfl
  | none => exact fun t ht => List.mem_singleton.mp ht ▸ hstop _

section Renewal

variable {h : LocalHost} {parsers : List Parser} {a : Analyzers}

theorem renews_stop (fault : Fault) : (Task.stop fault).Renews a := trivial

theorem renews_portTask (id : UInt32) (port : Port) : (portTask id port).Renews a := by
  unfold portTask
  split <;> trivial

theorem renews_protocolTasks {p : ProtocolAnalyzer} (hp : a.protocol.get? p.id = some p) :
    ∀ t ∈ protocolTasks h parsers p, t.Renews a := by
  apply forall_withParser renews_stop
  intro originator
  refine List.forall_mem_cons.mpr ⟨⟨p, hp, rfl⟩, ?_⟩
  apply forall_withParser renews_stop
  intro responder
  refine List.forall_mem_cons.mpr ⟨⟨p, hp, rfl⟩, ?_⟩
  apply forall_withId renews_stop
  intro id _
  exact List.forall_mem_map.mpr fun port _ => renews_portTask id port

theorem renews_fileTasks {p : FileAnalyzer} (hp : a.file.get? p.id = some p) :
    ∀ t ∈ fileTasks h parsers p, t.Renews a := by
  apply forall_withParser renews_stop
  intro parser
  refine List.forall_mem_cons.mpr ⟨⟨p, hp, rfl⟩, ?_⟩
  apply forall_withId renews_stop
  intro id _
  exact List.forall_mem_map.mpr fun _ _ => trivial

theorem renews_packetTasks {p : PacketAnalyzer} (hp : a.packet.get? p.id = some p) :
    ∀ t ∈ packetTasks parsers p, t.Renews a := by
  apply forall_withParser renews_stop
  intro parser
  exact List.forall_mem_singleton.mpr ⟨p, hp, rfl⟩

theorem renews_schedule (ha : a.Placed) : ∀ t ∈ schedule h parsers a, t.Renews a := by
  simp only [schedule, List.forall_mem_append, List.forall_mem_flatMap]
  exact ⟨fun p hp => renews_protocolTasks (ha.protocol.mem_toList.mp hp),
    fun p hp => renews_fileTasks (ha.file.mem_toList.mp hp),
    fun p hp => renews_packetTasks (ha.packet.mem_toList.mp hp)⟩

end Renewal

section Resolved

variable {h : LocalHost} {parsers : List Parser}

theorem foldl_store_ports (id : UInt32) (ports : List Port) (a : Analyzers) :
    (ports.map (portTask id)).foldl (fun a t => t.store a) a = a := by
  induction ports with
  | nil => rfl
  | cons port ports ih =>
    have hport : (portTask id port).store a = a := by
      unfold portTask
      split <;> rfl
    rw [List.map_cons, List.foldl_cons, hport, ih]

theorem foldl_store_mimeTypes (id : UInt32) (mimeTypes : List String) (a : Analyzers) :
    (mimeTypes.map (mimeTypeTask id)).foldl (fun a t => t.store a) a = a := by
  induction mimeTypes with
  | nil => rfl
  | cons mimeType mimeTypes ih => exact ih

theorem foldl_store_protocolTasks {l : List ProtocolAnalyzer}
    (hl : ∀ p ∈ l, p.decl.Resolvable h parsers) (a : Analyzers) :
    (l.flatMap (protocolTasks h parsers)).foldl (fun a t => t.store a) a =
      { a with protocol := l.foldl (fun t p => t.insert (p.resolved parsers)) a.protocol } := by
  induction l generalizing a with
  | nil => rfl
  | cons p l ih =>
    have hp := hl p List.mem_cons_self
    obtain ⟨id, hid⟩ := Option.ne_none_iff_exists'.mp hp.known
    rw [List.flatMap_cons, List.foldl_append, ih fun b hb => hl b (List.mem_cons_of_mem p hb),
      protocolTasks_eq hp hid, List.foldl_cons, List.foldl_cons, foldl_store_ports]
    simp only [Task.store, List.foldl_cons]
    rw [SlotTable.insert_insert]
    · rfl
    · rfl

theorem foldl_store_fileTasks {l : List FileAnalyzer}
    (hl : ∀ p ∈ l, p.decl.Resolvable h parsers) (a : Analyzers) :
    (l.flatMap (fileTasks h parsers)).foldl (fun a t => t.store a) a =
      { a with file := l.foldl (fun t p => t.insert (p.resolved parsers)) a.file } := by
  induction l generalizing a with
  | nil => rfl
  | cons p l ih =>
    have hp := hl p List.mem_cons_self
    obtain ⟨id, hid⟩ := Option.ne_none_iff_exists'.mp hp.known
    rw [List.flatMap_cons, List.foldl_append, ih fun b hb => hl b (List.mem_cons_of_mem p hb),
      fileTasks_eq hp hid, List.foldl_cons, foldl_store_mimeTypes]
    rfl

theorem foldl_store_packetTasks {l : List PacketAnalyzer}
    (hl : ∀ p ∈ l, ParserFound parsers p.decl.parser) (a : Analyzers) :
    (l.flatMap (packetTasks parsers)).foldl (fun a t => t.store a) a =
      { a with packet := l.foldl (fun t p => t.insert (p.resolved parsers)) a.packet } := by
  induction l generalizing a with
  | nil => rfl
  | cons p l ih =>
    rw [List.flatMap_cons, List.foldl_append, ih fun b hb => hl b (List.mem_cons_of_mem p hb),
      packetTasks_eq (hl p List.mem_cons_self)]
    rfl

/-- Without a fault every record gets the parsers of its names. -/
theorem foldl_store_schedule {a : Analyzers} (ha : a.Placed) (hr : a.Resolvable h parsers) :
    (schedule h parsers a).foldl (fun a t => t.store a) a = a.resolved parsers := by
  have hprotocol := ha.protocol.foldl_insert_toList (f := ProtocolAnalyzer.resolved parsers)
    fun _ => rfl
  have hfile := ha.file.foldl_insert_toList (f := FileAnalyzer.resolved parsers) fun _ => rfl
  have hpacket := ha.packet.foldl_insert_toList (f := PacketAnalyzer.resolved parsers) fun _ => rfl
  rw [schedule, List.foldl_append, List.foldl_append, foldl_store_protocolTasks hr.protocol,
    foldl_store_fileTasks hr.file, foldl_store_packetTasks hr.packet, Analyzers.resolved, hprotocol,
    hfile, hpacket]

end Resolved

end Registry

end TrafficAnalyzers
