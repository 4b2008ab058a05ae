import TrafficAnalyzers.Proofs.Growth
import TrafficAnalyzers.Proofs.Resolution.Records
/-!
What a resolution comes to. Main statement: it succeeds exactly if all analyzers can be resolved, and
then stores the parsers of all records and binds all ports and MIME types, in the order of the
tables; otherwise it does the tasks before the first fault.
-/
namespace TrafficAnalyzers

/-- The table lists the records of its set slots, by strictly increasing number. -/
structure SlotTable.Listed {δ : Type} [Slotted δ] (t : SlotTable δ) : Prop where
  ascending : t.toList.Pairwise fun a b => Slotted.id a < Slotted.id b
  mem_iff : ∀ d, d ∈ t.toList ↔ ∃ id, t.get? id = some d
  id_eq : ∀ id d, t.get? id = some d → Slotted.id d = id

theorem SlotTable.Placed.listed {δ : Type} [Slotted δ] {t : SlotTable δ} (ht : t.Placed) :
    t.Listed := by
  have hid (id : UInt32) (d : δ) (hd : t.get? id = some d) : Slotted.id d = id := (ht.id_eq hd).1
  refine ⟨ht.toList_sorted, fun d => ?_, hid⟩
  rw [ht.mem_toList]
  constructor
  · exact fun hd => ⟨_, hd⟩
  · rintro ⟨id, hd⟩
    rwa [hid id d hd]

structure Analyzers.Listed (a : Analyzers) : Prop where
  protocol : a.protocol.Listed
  file : a.file.Listed
  packet : a.packet.Listed

theorem Analyzers.Placed.listed {a : Analyzers} (ha : a.Placed) : a.Listed :=
  ⟨ha.protocol.listed, ha.file.listed, ha.packet.listed⟩

theorem isSome_bindingOf? {id : UInt32} {port : Port} (h : port.transport ≠ .undefined) :
    (bindingOf? id port).isSome := by
  rw [bindingOf?, Option.isSome_map]
  cases htransport : port.transport <;> first | rfl | contradiction

/-- The bindings of a declaration are one for each port, in the order of the ports, and all for the
number that the host finds by the name. -/
theorem ProtocolDecl.Resolvable.bindings {h : LocalHost} {parsers : List Parser} {d : ProtocolDecl}
    (hd : d.Resolvable h parsers) : ∃ id, h.id? .protocol d.name = some id ∧
      (d.bindings h parsers).map some = (d.portsWith parsers).map (bindingOf? id) := by
  obtain ⟨id, hid⟩ := Option.ne_none_iff_exists'.mp hd.known
  refine ⟨id, hid, ?_⟩
  rw [ProtocolDecl.bindings, hid, Option.map_some, Option.getD_some,
    List.map_filterMap_some_eq_filter_map_isSome, List.filter_eq_self]
  exact List.forall_mem_map.mpr fun port hport => isSome_bindingOf? (hd.ports port hport)

/-- The events of a declaration are one for each MIME type, in their order. -/
theorem FileDecl.Resolvable.events {h : LocalHost} {parsers : List Parser} {d : FileDecl}
    (hd : d.Resolvable h parsers) : ∃ id, h.id? .file d.name = some id ∧
      d.events h parsers = (d.mimeTypesWith parsers).map (mimeTypeBinding id) := by
  obtain ⟨id, hid⟩ := Option.ne_none_iff_exists'.mp hd.known
  exact ⟨id, hid, by rw [FileDecl.events, hid, Option.map_some, Option.getD_some]⟩

namespace Registry

/-- The registry when all analyzers are resolved and bound. -/
def withResolved (parsers : List Parser) (r : Registry LocalHost) : Registry LocalHost :=
  { r with
    analyzers := r.analyzers.resolved parsers
    host := { r.host with
      portBindings := r.host.portBindings ++
        r.analyzers.protocol.toList.flatMap fun p => p.decl.bindings r.host parsers
      queuedEvents := r.host.queuedEvents ++
        r.analyzers.file.toList.flatMap fun p => p.decl.events r.host parsers } }

variable {parsers : List Parser} {r : Registry LocalHost}

theorem result_resolve_ok_iff :
    (resolve parsers r).result = .ok () ↔ r.analyzers.Resolvable r.host parsers := by
  have hresult : (resolve parsers r).result =
      (carryOut (schedule r.host parsers r.analyzers) r).1 :=
    congrArg Prod.fst (silent_resolve parsers r)
  rw [hresult, carryOut_ok_iff, faultless_schedule]

theorem carryOut_schedule (hp : r.analyzers.Placed) (hr : r.analyzers.Resolvable r.host parsers) :
    carryOut (schedule r.host parsers r.analyzers) r = (.ok (), r.withResolved parsers) := by
  obtain ⟨hbindings, hevents⟩ := schedule_of_resolvable hr
  rw [carryOut_faultless (faultless_schedule.mpr hr), Task.applyAll, foldl_store_schedule hp hr,
    hbindings, hevents, withResolved]

theorem state_resolve_of_resolvable (hp : r.analyzers.Placed)
    (hr : r.analyzers.Resolvable r.host parsers) :
    (resolve parsers r).state = r.withResolved parsers := by
  have hout := silent_resolve parsers r
  rw [carryOut_schedule hp hr] at hout
  exact state_of_silent hout

/-- A resolution that fails has done the tasks before its fault, which is the first one. -/
theorem state_resolve_of_error {fault : Fault} (hfault : (resolve parsers r).result = .error fault) :
    ∃ done rest, schedule r.host parsers r.analyzers = done ++ .stop fault :: rest ∧
      Faultless done ∧ (resolve parsers r).state = Task.applyAll done r := by
  have hout := silent_resolve parsers r
  have hnot : ¬ Faultless (schedule r.host parsers r.analyzers) := by
    rw [faultless_schedule, ← result_resolve_ok_iff, hfault]
    exact nofun
  obtain ⟨done, found, rest, hts, hdone, hcarry⟩ := carryOut_stopped hnot r
  rw [hcarry] at hout
  have hresult : (resolve parsers r).result = .error found := congrArg Prod.fst hout
  obtain rfl : found = fault := Except.error.inj (hresult.symm.trans hfault)
  exact ⟨done, rest, hts, hdone, state_of_silent hout⟩

/-- Over tables that registrations filled, resolution succeeds exactly if every analyzer can be
resolved. Then each port and each MIME type is bound once, table by table and record by record. -/
theorem resolve_specified (hbuilt : r.analyzers.Built) (parsers : List Parser) :
    r.analyzers.Listed ∧
      ((resolve parsers r).result = .ok () ↔ r.analyzers.Resolvable r.host parsers) ∧
      ((resolve parsers r).result = .ok () →
        (resolve parsers r).state = r.withResolved parsers ∧
        (∀ p ∈ r.analyzers.protocol.toList, ∃ id, r.host.id? .protocol p.decl.name = some id ∧
          (p.decl.bindings r.host parsers).map some =
            (p.decl.portsWith parsers).map (bindingOf? id)) ∧
        ∀ p ∈ r.analyzers.file.toList, ∃ id, r.host.id? .file p.decl.name = some id ∧
          p.decl.events r.host parsers =
            (p.decl.mimeTypesWith parsers).map (mimeTypeBinding id)) ∧
      ∀ fault, (resolve parsers r).result = .error fault →
        ∃ done rest, schedule r.host parsers r.analyzers = done ++ .stop fault :: rest ∧
          Faultless done ∧ (resolve parsers r).state = Task.applyAll done r := by
  refine ⟨hbuilt.placed.listed, result_resolve_ok_iff, fun hok => ?_, fun _ =>
    state_resolve_of_error⟩
  have hr := result_resolve_ok_iff.mp hok
  exact ⟨state_resolve_of_resolvable hbuilt.placed hr, fun p hp => (hr.protocol p hp).bindings,
    fun p hp => (hr.file p hp).events⟩

/-- The parser of `twoSided`, with a port for each side and one for both. -/
def sided : Parser :=
  ⟨"Sided", [⟨⟨1, .tcp⟩, .originator⟩, ⟨⟨2, .udp⟩, .responder⟩, ⟨⟨3, .tcp⟩, .both⟩], ["a/b"]⟩

/-- A protocol analyzer with the same parser on both sides, and a file analyzer. -/
def twoSided : Registry LocalHost :=
  (register (.file ⟨"File", ["c/d"], "Sided", ""⟩)
    (register (.protocol ⟨"Protocol", .tcp, [⟨9, .icmp⟩], "Sided", "Sided", ""⟩)
      (.new (.new 0 "" true) [])).state).state

theorem built_twoSided : twoSided.analyzers.Built := .register _ (.register _ .empty)

/-- Declared ports come first, and the originator's side adds none. -/
theorem twoSided_resolved :
    let s := (resolve [sided] twoSided).state
    s = twoSided.withResolved [sided] ∧
      s.host.portBindings = [⟨1, .icmp, 9⟩, ⟨1, .udp, 2⟩, ⟨1, .tcp, 3⟩] ∧
      s.host.queuedEvents = [mimeTypeBinding 1 "c/d", mimeTypeBinding 1 "a/b"] := by
  intro s
  have hok : (resolve [sided] twoSided).result = .ok () := by decide +kernel
  have hstate := ((resolve_specified built_twoSided [sided]).2.2.1 hok).1
  exact ⟨hstate, by decide +kernel, by decide +kernel⟩

end Registry

end TrafficAnalyzers
