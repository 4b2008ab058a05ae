import TrafficAnalyzers.Host.Local
import TrafficAnalyzers.Proofs.Operations
import TrafficAnalyzers.Registry.Resolution
/-!
Resolution laid out in advance, as the list of its tasks. Main statement: resolving does the tasks
of the schedule in their order, up to the first fault, and takes none of them back.
-/
namespace TrafficAnalyzers

theorem LocalHost.id?_congr {h h' : LocalHost} (hc : h.components = h'.components) (kind : Kind)
    (name : String) : h.id? kind name = h'.id? kind name := by
  simp only [LocalHost.id?, LocalHost.component?, hc]

namespace Registry

/-- One thing that resolution does, or the fault it stops at. -/
inductive Task where
  /-- Keeps a record in the place of the one with its number. -/
  | protocol (p : ProtocolAnalyzer)
  | file (p : FileAnalyzer)
  | packet (p : PacketAnalyzer)
  | bind (binding : PortBinding)
  | queue (event : QueuedEvent)
  | stop (fault : Fault)
  deriving DecidableEq, Repr

namespace Task

def fault? : Task → Option Fault
  | stop fault => some fault
  | _ => none

def binding? : Task → Option PortBinding
  | bind binding => some binding
  | _ => none

def event? : Task → Option QueuedEvent
  | queue event => some event
  | _ => none

def store : Task → Analyzers → Analyzers
  | protocol p, a => { a with protocol := a.protocol.insert p }
  | file p, a => { a with file := a.file.insert p }
  | packet p, a => { a with packet := a.packet.insert p }
  | _, a => a

/-- What a task does; a fault does nothing. -/
def apply (t : Task) (r : Registry LocalHost) : Registry LocalHost :=
  { r with
    analyzers := t.store r.analyzers
    host := { r.host with
      portBindings := r.host.portBindings ++ t.binding?.toList
      queuedEvents := r.host.queuedEvents ++ t.event?.toList } }

end Task

/-- Does tasks in their order, up to the first fault. -/
def carryOut : List Task → Registry LocalHost → Except Fault Unit × Registry LocalHost
  | [], r => (.ok (), r)
  | t :: ts, r =>
    match t.fault? with
    | some fault => (.error fault, r)
    | none => carryOut ts (t.apply r)

/-- A port of an undefined transport cannot be bound. -/
def portTask (id : UInt32) (port : Port) : Task :=
  match port.transport.host? with
  | some transport => .bind ⟨id, transport, port.number⟩
  | none => .stop (.unsupportedTransport port.text)

def mimeTypeTask (id : UInt32) (mimeType : String) : Task :=
  .queue ⟨mimeTypeEvent, [.fileTag id, .text mimeType]⟩

/-- The parser's tasks, or the fault instead of them. -/
def withParser (analyzer name : String) (parsers : List Parser)
    (tasks : Option Parser → List Task) : List Task :=
  match parserNamed analyzer name parsers with
  | .ok parser => tasks parser
  | .error fault => [.stop fault]

/-- The tasks for the number that the host finds by the analyzer's name, or the fault instead. -/
def withId (id : Option UInt32) (analyzer : String) (tasks : UInt32 → List Task) : List Task :=
  match id with
  | some id => tasks id
  | none => [.stop (.missingTag analyzer)]

def protocolTasks (h : LocalHost) (parsers : List Parser) (p : ProtocolAnalyzer) : List Task :=
  withParser p.decl.name p.decl.originator parsers fun originator =>
    .protocol { p with originator } ::
      withParser p.decl.name p.decl.responder parsers fun responder =>
        .protocol { p with originator, responder } ::
          withId (h.id? .protocol p.decl.name) p.decl.name fun id =>
            (p.decl.ports ++ (responder.map Parser.responderPorts).getD []).map (portTask id)

def fileTasks (h : LocalHost) (parsers : List Parser) (p : FileAnalyzer) : List Task :=
  withParser p.decl.name p.decl.parser parsers fun parser =>
    .file { p with parser } ::
      withId (h.id? .file p.decl.name) p.decl.name fun id =>
        (p.decl.mimeTypes ++ (parser.map (·.mimeTypes)).getD []).map (mimeTypeTask id)

def packetTasks (parsers : List Parser) (p : PacketAnalyzer) : List Task :=
  withParser p.decl.name p.decl.parser parsers fun parser => [.packet { p with parser }]

/-- All tasks of a resolution, each kind by ascending number. -/
def schedule (h : LocalHost) (parsers : List Parser) (a : Analyzers) : List Task :=
  a.protocol.toList.flatMap (protocolTasks h parsers) ++
    (a.file.toList.flatMap (fileTasks h parsers) ++ a.packet.toList.flatMap (packetTasks parsers))

theorem carryOut_append (ts us : List Task) (r : Registry LocalHost) :
    carryOut (ts ++ us) r = match carryOut ts r with
      | (.ok (), r') => carryOut us r'
      | (.error fault, r') => (.error fault, r') := by
  induction ts generalizing r with
  | nil => rfl
  | cons t ts ih =>
    simp only [List.cons_append, carryOut]
    cases t.fault? with
    | some fault => rfl
    | none => exact ih (t.apply r)

/-- The tasks among which none is a fault. -/
def Faultless (ts : List Task) : Prop := ∀ t ∈ ts, t.fault? = none

/-- What tasks leave behind that are all done. -/
def Task.applyAll (ts : List Task) (r : Registry LocalHost) : Registry LocalHost :=
  { r with
    analyzers := ts.foldl (fun a t => t.store a) r.analyzers
    host := { r.host with
      portBindings := r.host.portBindings ++ ts.filterMap Task.binding?
      queuedEvents := r.host.queuedEvents ++ ts.filterMap Task.event? } }

theorem applyAll_nil (r : Registry LocalHost) : Task.applyAll [] r = r := by
  simp [Task.applyAll]

theorem applyAll_cons (t : Task) (ts : List Task) (r : Registry LocalHost) :
    Task.applyAll (t :: ts) r = Task.applyAll ts (t.apply r) := by
  have hb : (t :: ts).filterMap Task.binding? =
      t.binding?.toList ++ ts.filterMap Task.binding? := by
    cases h : t.binding? <;> simp [h]
  have he : (t :: ts).filterMap Task.event? =
      t.event?.toList ++ ts.filterMap Task.event? := by
    cases h : t.event? <;> simp [h]
  simp [Task.applyAll, Task.apply, hb, he]

theorem carryOut_faultless {ts : List Task} (h : Faultless ts) (r : Registry LocalHost) :
    carryOut ts r = (.ok (), Task.applyAll ts r) := by
  induction ts generalizing r with
  | nil => rw [applyAll_nil, carryOut]
  | cons t ts ih =>
    rw [carryOut, h t List.mem_cons_self, applyAll_cons]
    exact ih (fun u hu => h u (List.mem_cons_of_mem t hu)) (t.apply r)

/-- Of tasks with a fault among them, those before the first one are done. -/
theorem carryOut_stopped {ts : List Task} (h : ¬ Faultless ts) (r : Registry LocalHost) :
    ∃ done fault rest, ts = done ++ .stop fault :: rest ∧ Faultless done ∧
      carryOut ts r = (.error fault, Task.applyAll done r) := by
  induction ts generalizing r with
  | nil => exact absurd (fun t ht => absurd ht List.not_mem_nil) h
  | cons t ts ih =>
    cases ht : t.fault? with
    | some fault =>
      obtain rfl : t = .stop fault := by
        cases t <;> simp_all [Task.fault?]
      refine ⟨[], fault, ts, rfl, fun u hu => absurd hu List.not_mem_nil, ?_⟩
      rw [applyAll_nil]
      rfl
    | none =>
      have hts : ¬ Faultless ts := fun hts => h fun u hu => by
        rcases List.mem_cons.mp hu with rfl | hu
        · exact ht
        · exact hts u hu
      obtain ⟨done, fault, rest, rfl, hdone, hout⟩ := ih hts (t.apply r)
      refine ⟨t :: done, fault, rest, rfl, ?_, ?_⟩
      · intro u hu
        rcases List.mem_cons.mp hu with rfl | hu
        · exact ht
        · exact hdone u hu
      · rw [applyAll_cons, ← hout, carryOut, ht]

theorem carryOut_ok_iff {ts : List Task} {r : Registry LocalHost} :
    (carryOut ts r).1 = .ok () ↔ Faultless ts := by
  constructor
  · intro hok
    by_cases h : Faultless ts
    · exact h
    · obtain ⟨done, fault, rest, -, -, hout⟩ := carryOut_stopped h r
      simp [hout] at hok
  · intro h
    rw [carryOut_faultless h]

@[simp] theorem components_carryOut (ts : List Task) (r : Registry LocalHost) :
    (carryOut ts r).2.host.components = r.host.components := by
  induction ts generalizing r with
  | nil => rfl
  | cons t ts ih =>
    simp only [carryOut]
    cases t.fault? with
    | some fault => rfl
    | none => exact ih (t.apply r)

section Silent

variable {α : Type} {f : α → Op (Registry LocalHost) Unit} {tasks : α → List Task}

/-- Two operations that come to tasks come to all of them, one after the other, as long as the later
tasks are found from the components alone. -/
theorem silent_seq {x y : Op (Registry LocalHost) Unit} {ts us : List Task}
    {r : Registry LocalHost} (hx : (x r).silent = carryOut ts r)
    (hy : ∀ r', r'.host.components = r.host.components → (y r').silent = carryOut us r') :
    ((x >>= fun _ => y) r).silent = carryOut (ts ++ us) r := by
  rw [Op.silent_bind, hx, carryOut_append]
  have hc := components_carryOut ts r
  rcases hout : carryOut ts r with ⟨result, r'⟩
  rw [hout] at hc
  cases result with
  | error fault => rfl
  | ok => exact hy r' hc

theorem silent_forM {components : List ComponentRecord}
    (h : ∀ a r, r.host.components = components → (f a r).silent = carryOut (tasks a) r)
    (l : List α) (r : Registry LocalHost) (hr : r.host.components = components) :
    (l.forM f r).silent = carryOut (l.flatMap tasks) r := by
  induction l generalizing r with
  | nil => rfl
  | cons a l ih =>
    rw [Op.forM_cons, List.flatMap_cons]
    exact silent_seq (h a r hr) fun r' hr' => ih r' (hr'.trans hr)

theorem silent_bind_of_task {x : Op (Registry LocalHost) Unit} {t : Task} {r : Registry LocalHost}
    (hx : (x r).silent = (.ok (), t.apply r)) (ht : t.fault? = none)
    {g : Unit → Op (Registry LocalHost) Unit} {ts : List Task}
    (h : (g () (t.apply r)).silent = carryOut ts (t.apply r)) :
    ((x >>= g) r).silent = carryOut (t :: ts) r := by
  rw [Op.silent_bind, hx, carryOut, ht]
  exact h

theorem silent_findParser_bind (analyzer name : String) (parsers : List Parser)
    {g : Option Parser → Op (Registry LocalHost) Unit} {next : Option Parser → List Task}
    {r : Registry LocalHost} (h : ∀ parser, (g parser r).silent = carryOut (next parser) r) :
    ((findParser analyzer name parsers >>= g) r).silent =
      carryOut (withParser analyzer name parsers next) r := by
  rw [Op.silent_bind, findParser, withParser]
  cases parserNamed analyzer name parsers with
  | error fault => rfl
  | ok parser => exact h parser

theorem silent_idByName_bind (kind : Kind) (name : String)
    {g : UInt32 → Op (Registry LocalHost) Unit} {next : UInt32 → List Task}
    {r : Registry LocalHost} (h : ∀ id, (g id r).silent = carryOut (next id) r) :
    ((idByName (LocalHost.id? · kind) name >>= g) r).silent =
      carryOut (withId (r.host.id? kind name) name next) r := by
  rw [Op.silent_bind, idByName, Op.silent_bind]
  change Op.proceed (Op.proceed (.ok (r.host.id? kind name), r) _) g = _
  cases r.host.id? kind name with
  | none => rfl
  | some id => exact h id

end Silent

theorem silent_bindPort (id : UInt32) (port : Port) (r : Registry LocalHost) :
    (bindPort id port r).silent = carryOut [portTask id port] r := by
  rw [bindPort, Op.silent_debug_bind, portTask]
  cases port.transport.host? with
  | none => rfl
  | some transport =>
    simp [Outcome.silent, carryOut, Task.fault?, Task.apply, Host.bindPort, Task.store,
      Task.binding?, Task.event?]

theorem silent_bindMimeType (id : UInt32) (mimeType : String) (r : Registry LocalHost) :
    (bindMimeType id mimeType r).silent = carryOut [mimeTypeTask id mimeType] r := by
  rw [bindMimeType, Op.silent_debug_bind]
  simp [Outcome.silent, carryOut, mimeTypeTask, Task.fault?, Task.apply, Host.enqueueEvent,
    Task.store, Task.binding?, Task.event?]

theorem silent_ports (id : UInt32) (ports : List Port) (r : Registry LocalHost) :
    (ports.forM (bindPort id) r).silent = carryOut (ports.map (portTask id)) r := by
  rw [List.map_eq_flatMap]
  exact silent_forM (fun port r _ => silent_bindPort id port r) ports r rfl

theorem silent_mimeTypes (id : UInt32) (mimeTypes : List String) (r : Registry LocalHost) :
    (mimeTypes.forM (bindMimeType id) r).silent =
      carryOut (mimeTypes.map (mimeTypeTask id)) r := by
  rw [List.map_eq_flatMap]
  exact silent_forM (fun mimeType r _ => silent_bindMimeType id mimeType r) mimeTypes r rfl

theorem silent_storeProtocol (p : ProtocolAnalyzer) (r : Registry LocalHost) :
    (storeProtocol p r).silent = (.ok (), (Task.protocol p).apply r) := by
  simp [storeProtocol, Outcome.silent, Task.apply, Task.store, Task.binding?, Task.event?]

theorem silent_storeFile (p : FileAnalyzer) (r : Registry LocalHost) :
    (storeFile p r).silent = (.ok (), (Task.file p).apply r) := by
  simp [storeFile, Outcome.silent, Task.apply, Task.store, Task.binding?, Task.event?]

theorem silent_storePacket (p : PacketAnalyzer) (r : Registry LocalHost) :
    (storePacket p r).silent = (.ok (), (Task.packet p).apply r) := by
  simp [storePacket, Outcome.silent, Task.apply, Task.store, Task.binding?, Task.event?]

theorem silent_resolveProtocol (parsers : List Parser) (p : ProtocolAnalyzer)
    (r : Registry LocalHost) :
    (resolveProtocol parsers p r).silent = carryOut (protocolTasks r.host parsers p) r := by
  rw [resolveProtocol, Op.silent_debug_bind, protocolTasks]
  apply silent_findParser_bind
  intro originator
  apply silent_bind_of_task (silent_storeProtocol _ r) rfl
  apply silent_findParser_bind
  intro responder
  apply silent_bind_of_task (silent_storeProtocol _ _) rfl
  apply silent_idByName_bind .protocol
  intro id
  rw [List.map_append]
  exact silent_seq (silent_ports id _ _) fun r' _ => silent_ports id _ r'

theorem silent_resolveFile (parsers : List Parser) (p : FileAnalyzer) (r : Registry LocalHost) :
    (resolveFile parsers p r).silent = carryOut (fileTasks r.host parsers p) r := by
  rw [resolveFile, Op.silent_debug_bind, fileTasks]
  apply silent_findParser_bind
  intro parser
  apply silent_bind_of_task (silent_storeFile _ r) rfl
  apply silent_idByName_bind .file
  intro id
  exact silent_mimeTypes id _ _

theorem silent_resolvePacket (parsers : List Parser) (p : PacketAnalyzer)
    (r : Registry LocalHost) :
    (resolvePacket parsers p r).silent = carryOut (packetTasks parsers p) r := by
  rw [resolvePacket, Op.silent_debug_bind, packetTasks]
  apply silent_findParser_bind
  intro parser
  rw [silent_storePacket]
  rfl

/-- Resolution does the tasks of its schedule, up to the first fault. -/
theorem silent_resolve (parsers : List Parser) (r : Registry LocalHost) :
    (resolve parsers r).silent = carryOut (schedule r.host parsers r.analyzers) r := by
  have hprotocol (a : ProtocolAnalyzer) (r' : Registry LocalHost)
      (hr : r'.host.components = r.host.components) :
      (resolveProtocol parsers a r').silent = carryOut (protocolTasks r.host parsers a) r' := by
    rw [silent_resolveProtocol, protocolTasks, LocalHost.id?_congr hr]
    rfl
  have hfile (a : FileAnalyzer) (r' : Registry LocalHost)
      (hr : r'.host.components = r.host.components) :
      (resolveFile parsers a r').silent = carryOut (fileTasks r.host parsers a) r' := by
    rw [silent_resolveFile, fileTasks, LocalHost.id?_congr hr]
    rfl
  have hpacket (a : PacketAnalyzer) (r' : Registry LocalHost)
      (_ : r'.host.components = r.host.components) := silent_resolvePacket parsers a r'
  rw [resolve, Op.silent_bind]
  apply silent_seq (silent_forM hprotocol _ r rfl)
  intro r' hr'
  apply silent_seq (silent_forM hfile _ r' hr')
  intro r'' hr''
  exact silent_forM hpacket _ r'' (hr''.trans hr')

end Registry

end TrafficAnalyzers
