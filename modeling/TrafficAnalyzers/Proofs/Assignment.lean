import TrafficAnalyzers.Proofs.Interchange.Portrait
import TrafficAnalyzers.Proofs.Slots.Log
/-!
The tables over a host that may answer anything. Main statement: they are the map from the tags that
the host gave out to the latest analyzers that it gave them to.
-/
namespace TrafficAnalyzers

namespace Host

variable {H : Type} [Host H]

/-- The number by which the host knows an analyzer that can be replaced. -/
def known? (h : H) : Kind → String → Option UInt32
  | .protocol, name => Host.protocolId? h name
  | .file, name => Host.fileId? h name
  | .packet, _ => none

def turnOff (h : H) : Kind → UInt32 → H
  | .protocol, id => Host.setProtocolEnabled id false h
  | .file, id => (Host.setFileEnabled id false h).2
  | .packet, _ => h

/-- What the host answers when a component is added and initialized. -/
def introduce (name : String) (entry : Entry) (h : H) : Option Tag × H :=
  let added := Host.addComponent ⟨name, entry⟩ h
  Host.initComponent added.1 (Host.addScriptLocation (scriptLocation name) added.2)

end Host

/-- An answer of use is a tag of the kind with a number that is not zero. -/
def Entry.accepted? (entry : Entry) (answer : Option Tag) : Option Tag :=
  answer.filter fun tag => tag.kind = entry.kind ∧ tag.id ≠ 0

theorem Entry.accepted?_eq_some {entry : Entry} {answer : Option Tag} {tag : Tag} :
    entry.accepted? answer = some tag ↔ answer = some tag ∧ tag.kind = entry.kind ∧ tag.id ≠ 0 := by
  rw [accepted?, Option.filter_eq_some_iff, decide_eq_true_iff]

namespace Newcomer

variable {H : Type} [Host H]

/-- The number of the analyzer that the newcomer replaces. -/
def ousted? (n : Newcomer) (h : H) : Option UInt32 :=
  n.replaces.bind (Host.known? h n.entry.kind)

/-- What the host answers for the newcomer, when it has turned off what that replaces. -/
def answer (n : Newcomer) (h : H) : Option Tag × H :=
  Host.introduce n.name n.entry ((n.ousted? h).elim h (Host.turnOff h n.entry.kind))

end Newcomer

namespace AnalyzerRecord

/-- The record at a number, with the number of the analyzer that it replaces. -/
def tagged (id : UInt32) (replaces : Option UInt32) : AnalyzerRecord → AnalyzerRecord
  | protocol p => .protocol { p with id, replaces }
  | file p => .file { p with id, replaces }
  | packet p => .packet { p with id }

def protocol? : AnalyzerRecord → Option ProtocolAnalyzer
  | protocol p => some p
  | file _ | packet _ => none

def file? : AnalyzerRecord → Option FileAnalyzer
  | file p => some p
  | protocol _ | packet _ => none

def packet? : AnalyzerRecord → Option PacketAnalyzer
  | packet p => some p
  | protocol _ | file _ => none

@[simp] theorem kind_tagged (id : UInt32) (replaces : Option UInt32) (d : AnalyzerRecord) :
    (d.tagged id replaces).kind = d.kind := by
  cases d <;> rfl

@[simp] theorem id_tagged (id : UInt32) (replaces : Option UInt32) (d : AnalyzerRecord) :
    (d.tagged id replaces).descriptor.id = id := by
  cases d <;> rfl

end AnalyzerRecord

namespace Analyzers

/-- Stores a record in the table of its kind. -/
def put (a : Analyzers) : AnalyzerRecord → Analyzers
  | .protocol p => { a with protocol := a.protocol.insert p }
  | .file p => { a with file := a.file.insert p }
  | .packet p => { a with packet := a.packet.insert p }

variable {a : Analyzers} {d : AnalyzerRecord}

theorem protocol_put (h : d.kind ≠ .protocol) : (a.put d).protocol = a.protocol := by
  cases d <;> first | rfl | exact absurd rfl h

theorem file_put (h : d.kind ≠ .file) : (a.put d).file = a.file := by
  cases d <;> first | rfl | exact absurd rfl h

theorem packet_put (h : d.kind ≠ .packet) : (a.put d).packet = a.packet := by
  cases d <;> first | rfl | exact absurd rfl h

/-- Every table is the map from numbers to the latest record of its kind. -/
structure Reflects (log : List AnalyzerRecord) (a : Analyzers) : Prop where
  protocol : SlotTable.Reflects (log.filterMap (·.protocol?)) a.protocol
  file : SlotTable.Reflects (log.filterMap (·.file?)) a.file
  packet : SlotTable.Reflects (log.filterMap (·.packet?)) a.packet

theorem reflects_empty : empty.Reflects [] :=
  ⟨SlotTable.reflects_empty, SlotTable.reflects_empty, SlotTable.reflects_empty⟩

theorem Reflects.put {log : List AnalyzerRecord} (h : a.Reflects log)
    (h0 : d.descriptor.id ≠ 0) : (a.put d).Reflects (log ++ [d]) := by
  cases d with
  | protocol p => exact ⟨h.protocol.store rfl h0, h.file.skip rfl, h.packet.skip rfl⟩
  | file p => exact ⟨h.protocol.skip rfl, h.file.store rfl h0, h.packet.skip rfl⟩
  | packet p => exact ⟨h.protocol.skip rfl, h.file.skip rfl, h.packet.store rfl h0⟩

end Analyzers

theorem Registration.kind_newcomer? {x : Registration} {b : Bool} {n : Newcomer}
    (hn : x.newcomer? b = some n) : n.record.kind = n.entry.kind := by
  cases x with
  | protocol decl =>
    obtain ⟨entry, hentry, rfl⟩ := Option.map_eq_some_iff.mp hn
    exact (Registry.kind_of_entryFor? hentry).symm
  | file decl =>
    obtain rfl := Option.some.inj hn
    rfl
  | packet decl =>
    obtain rfl := Option.some.inj hn
    rfl
  | parser | event | enumType => exact absurd hn.symm (Option.some_ne_none n)

namespace Registry

variable {H : Type} [Host H] {x : Registration} {n : Newcomer} {r : Registry H}

/-- A component gives its number only if the host's answer is of use. -/
theorem silent_addComponent_introduce (name : String) (entry : Entry) (r : Registry H) :
    (addComponent name entry r).silent =
      (((entry.accepted? (Host.introduce name entry r.host).1).map (·.id)).elim
          (.error (.missingTag name)) .ok,
        { r with host := (Host.introduce name entry r.host).2 }) := by
  rw [addComponent, silent_askHost_bind, silent_changeHost_bind, silent_askHost_bind]
  rw [Host.introduce]
  cases (Host.initComponent _ _ : Option Tag × H).1 with
  | none => rfl
  | some tag =>
    by_cases htag : tag.kind = entry.kind ∧ tag.id ≠ 0 <;>
      simp [Entry.accepted?, Option.filter, htag, Outcome.silent]

theorem silent_replaceProtocol_known {kind : Kind} (hkind : kind = .protocol)
    (name replaces : String) (r : Registry H) :
    (replaceProtocol name replaces r).silent =
      let ousted := (Registration.wanted? replaces).bind (Host.known? r.host kind)
      (.ok ousted, { r with host := ousted.elim r.host (Host.turnOff r.host kind) }) := by
  subst hkind
  unfold replaceProtocol Registration.wanted?
  split
  · rfl
  · rw [silent_query_bind, Option.bind_some, Host.known?]
    cases Host.protocolId? r.host replaces <;> rfl

theorem silent_replaceFile_known (name replaces : String) (r : Registry H) :
    (replaceFile name replaces r).silent =
      let wanted := if Host.supportsFileToggle r.host then Registration.wanted? replaces else none
      let ousted := wanted.bind (Host.known? r.host .file)
      (.ok ousted, { r with host := ousted.elim r.host (Host.turnOff r.host .file) }) := by
  unfold replaceFile Registration.wanted?
  rw [silent_query_bind]
  cases Host.supportsFileToggle r.host with
  | false =>
    rw [if_pos (.inr rfl)]
    rfl
  | true =>
    by_cases hnone : replaces = ""
    · simp only [hnone, true_or, ↓reduceIte]
      rfl
    · simp only [hnone, false_or, Bool.true_eq_false, ↓reduceIte, Option.bind_some]
      rw [silent_query_bind, Host.known?]
      cases Host.fileId? r.host replaces <;> rfl

/-- What becomes of a newcomer: it fails, or its record is stored at the number in the answer. -/
def received (n : Newcomer) (r : Registry H) : Except Fault Unit × Registry H :=
  let host := (n.answer r.host).2
  match n.entry.accepted? (n.answer r.host).1 with
  | some tag => (.ok (), { r with
      host, analyzers := r.analyzers.put (n.record.tagged tag.id (n.ousted? r.host)) })
  | none => (.error (.missingTag n.name), { r with host })

theorem silent_addComponent_store (n : Newcomer) (r : Registry H)
    {store : UInt32 → Op (Registry H) Unit}
    (hstore : ∀ id r', (store id r').silent = (.ok (), { r' with
      analyzers := r'.analyzers.put (n.record.tagged id (n.ousted? r.host)) })) :
    ((addComponent n.name n.entry >>= store) { r with
      host := (n.ousted? r.host).elim r.host (Host.turnOff r.host n.entry.kind) }).silent =
        received n r := by
  rw [Op.silent_bind, silent_addComponent_introduce, received, Newcomer.answer]
  cases n.entry.accepted? _ with
  | none => rfl
  | some tag =>
    rw [Option.map_some, Option.elim_some, Op.proceed_ok, hstore]

/-- Analyzers of all kinds are received alike. -/
theorem silent_register_newcomer (hn : x.newcomer? (Host.supportsFileToggle r.host) = some n) :
    (register x r).silent = received n r := by
  cases x with
  | protocol decl =>
    obtain ⟨entry, hentry, rfl⟩ := Option.map_eq_some_iff.mp hn
    rw [register, registerProtocol, Op.silent_debug_bind, hentry]
    simp only
    rw [Op.silent_bind, silent_replaceProtocol_known (kind_of_entryFor? hentry), Op.proceed_ok]
    exact silent_addComponent_store ⟨entry, decl.name, Registration.wanted? decl.replaces, _⟩ r
      fun _ _ => rfl
  | file decl =>
    obtain rfl := Option.some.inj hn
    rw [register, registerFile, Op.silent_debug_bind, Op.silent_bind, silent_replaceFile_known,
      Op.proceed_ok]
    exact silent_addComponent_store ⟨.file, decl.name, if Host.supportsFileToggle r.host then
      Registration.wanted? decl.replaces else none, _⟩ r fun _ _ => rfl
  | packet decl =>
    obtain rfl := Option.some.inj hn
    rw [register, registerPacket, Op.silent_debug_bind]
    exact silent_addComponent_store ⟨.packet, decl.name, none, _⟩ r fun _ _ => rfl
  | parser | event | enumType => exact absurd hn.symm (Option.some_ne_none n)

theorem silent_eventIdent_ok (name : String) (r : Registry H) :
    ∃ ident host, (eventIdent name r).silent = (.ok ident, { r with host }) := by
  rw [eventIdent, silent_askHost_bind]
  cases (Host.lookupIdent name (eventModule name) r.host).1 <;> exact ⟨_, _, rfl⟩

theorem analyzers_registerEnumType (space id : String) (labels : List (String × Int64))
    (r : Registry H) : (registerEnumType space id labels r).state.analyzers = r.analyzers := by
  rw [registerEnumType, state_eq_silent, silent_askHost_bind]
  cases (Host.lookupIdent id space r.host).1 <;> rfl

/-- What is no analyzer, or none over a transport with an entry, leaves the tables as they are. -/
theorem analyzers_register_of_none (hn : x.newcomer? (Host.supportsFileToggle r.host) = none) :
    (register x r).state.analyzers = r.analyzers := by
  cases x with
  | protocol decl =>
    rw [register, registerProtocol, state_eq_silent, Op.silent_debug_bind,
      Option.map_eq_none_iff.mp hn]
    rfl
  | file | packet => exact absurd hn (Option.some_ne_none _)
  | parser p => rfl
  | event name =>
    rw [register, registerEvent, state_eq_silent, silent_changeHost_bind, Op.silent_bind]
    obtain ⟨ident, host, hident⟩ :=
      silent_eventIdent_ok name { r with host := Host.addEventHandler name r.host }
    rw [hident]
    rfl
  | enumType space id labels => exact analyzers_registerEnumType space id labels r

/-- The record of a registration that succeeds, at the number in the host's answer. -/
def admitted? (x : Registration) (r : Registry H) : Option AnalyzerRecord :=
  match (register x r).result with
  | .ok () => do
    let n ← x.newcomer? (Host.supportsFileToggle r.host)
    let tag ← (n.answer r.host).1
    return n.record.tagged tag.id (n.ousted? r.host)
  | .error _ => none

/-- Registers one after the other, also after one that failed. -/
def registerAll (xs : List Registration) (r : Registry H) : Registry H :=
  xs.foldl (fun r x => (register x r).state) r

/-- The records of the registrations that succeed, in their order. -/
def admitted : List Registration → Registry H → List AnalyzerRecord
  | [], _ => []
  | x :: xs, r => (admitted? x r).toList ++ admitted xs (register x r).state

theorem result_register_newcomer (hn : x.newcomer? (Host.supportsFileToggle r.host) = some n) :
    (register x r).result = (n.entry.accepted? (n.answer r.host).1).elim
      (.error (.missingTag n.name)) fun _ => .ok () := by
  have hresult : (register x r).result = (received n r).1 :=
    congrArg Prod.fst (silent_register_newcomer hn)
  rw [hresult, received]
  cases n.entry.accepted? (n.answer r.host).1 <;> rfl

theorem admitted?_newcomer (hn : x.newcomer? (Host.supportsFileToggle r.host) = some n) :
    admitted? x r = (n.entry.accepted? (n.answer r.host).1).map fun tag =>
      n.record.tagged tag.id (n.ousted? r.host) := by
  rw [admitted?, result_register_newcomer hn]
  cases haccepted : n.entry.accepted? (n.answer r.host).1 with
  | none => rfl
  | some tag =>
    obtain ⟨hanswer, -⟩ := Entry.accepted?_eq_some.mp haccepted
    simp [hn, hanswer]

theorem admitted?_of_none (hn : x.newcomer? (Host.supportsFileToggle r.host) = none) :
    admitted? x r = none := by
  rw [admitted?, hn]
  split <;> rfl

/-- A registration adds to the tables the record that it admits, and nothing else. -/
theorem analyzers_register (x : Registration) (r : Registry H) :
    (register x r).state.analyzers = (admitted? x r).elim r.analyzers r.analyzers.put := by
  cases hn : x.newcomer? (Host.supportsFileToggle r.host) with
  | none => rw [analyzers_register_of_none hn, admitted?_of_none hn, Option.elim_none]
  | some n =>
    rw [state_eq_silent, silent_register_newcomer hn, admitted?_newcomer hn, received]
    cases n.entry.accepted? (n.answer r.host).1 <;> rfl

/-- An admitted record has a number and is of the kind that was declared. -/
theorem of_admitted? {d : AnalyzerRecord} (h : admitted? x r = some d) :
    d.descriptor.id ≠ 0 ∧ x.declares d.kind = true := by
  cases hn : x.newcomer? (Host.supportsFileToggle r.host) with
  | none =>
    rw [admitted?_of_none hn] at h
    contradiction
  | some n =>
    rw [admitted?_newcomer hn] at h
    obtain ⟨tag, htag, rfl⟩ := Option.map_eq_some_iff.mp h
    obtain ⟨-, -, h0⟩ := Entry.accepted?_eq_some.mp htag
    obtain ⟨hanalyzer, -⟩ := Registration.of_newcomer? hn
    rw [AnalyzerRecord.id_tagged, AnalyzerRecord.kind_tagged, Registration.kind_newcomer? hn,
      Registration.declares, hanalyzer]
    exact ⟨h0, decide_eq_true rfl⟩

theorem reflects_register {log : List AnalyzerRecord} (h : r.analyzers.Reflects log)
    (x : Registration) :
    (register x r).state.analyzers.Reflects (log ++ (admitted? x r).toList) := by
  rw [analyzers_register]
  cases hd : admitted? x r with
  | none => rwa [Option.elim_none, Option.toList_none, List.append_nil]
  | some d => exact h.put (of_admitted? hd).1

theorem reflects_registerAll {log : List AnalyzerRecord} (xs : List Registration)
    (h : r.analyzers.Reflects log) :
    (registerAll xs r).analyzers.Reflects (log ++ admitted xs r) := by
  induction xs generalizing r log with
  | nil => rwa [admitted, List.append_nil]
  | cons x xs ih =>
    rw [admitted, ← List.append_assoc]
    exact ih (reflects_register h x)

/-- The host's answer decides whether an analyzer is registered; if not, the tables stay. -/
structure Decided (x : Registration) (n : Newcomer) (r : Registry H) : Prop where
  ok_iff : (register x r).result = .ok () ↔
    ∃ tag, (n.answer r.host).1 = some tag ∧ tag.kind = n.entry.kind ∧ tag.id ≠ 0
  refused : (register x r).result ≠ .ok () →
    (register x r).result = .error (.missingTag n.name) ∧
      (register x r).state.analyzers = r.analyzers

theorem decided (hn : x.newcomer? (Host.supportsFileToggle r.host) = some n) : Decided x n r := by
  have hresult := result_register_newcomer hn
  cases haccepted : n.entry.accepted? (n.answer r.host).1 with
  | none =>
    rw [haccepted, Option.elim_none] at hresult
    refine ⟨⟨fun hok => ?_, fun ⟨tag, htag⟩ => ?_⟩, fun _ => ⟨hresult, ?_⟩⟩
    · rw [hresult] at hok
      contradiction
    · rw [Entry.accepted?_eq_some.mpr htag] at haccepted
      contradiction
    · rw [analyzers_register, admitted?_newcomer hn, haccepted, Option.map_none, Option.elim_none]
  | some tag =>
    rw [haccepted, Option.elim_some] at hresult
    exact ⟨⟨fun _ => ⟨tag, Entry.accepted?_eq_some.mp haccepted⟩, fun _ => hresult⟩,
      fun hnot => absurd hresult hnot⟩

/-- The tables of kinds that the registration does not declare stay as they are. -/
structure SparesOthers (x : Registration) (r : Registry H) : Prop where
  protocol : x.declares .protocol = false →
    (register x r).state.analyzers.protocol = r.analyzers.protocol
  file : x.declares .file = false → (register x r).state.analyzers.file = r.analyzers.file
  packet : x.declares .packet = false → (register x r).state.analyzers.packet = r.analyzers.packet

theorem sparesOthers (x : Registration) (r : Registry H) : SparesOthers x r := by
  cases hd : admitted? x r with
  | none =>
    have hsame : (register x r).state.analyzers = r.analyzers := by rw [analyzers_register, hd]; rfl
    exact ⟨fun _ => by rw [hsame], fun _ => by rw [hsame], fun _ => by rw [hsame]⟩
  | some d =>
    have hput : (register x r).state.analyzers = r.analyzers.put d := by
      rw [analyzers_register, hd]; rfl
    have hne {kind : Kind} (hnot : x.declares kind = false) : d.kind ≠ kind := by
      rintro rfl
      rw [(of_admitted? hd).2] at hnot
      contradiction
    exact ⟨fun hnot => hput ▸ Analyzers.protocol_put (hne hnot),
      fun hnot => hput ▸ Analyzers.file_put (hne hnot),
      fun hnot => hput ▸ Analyzers.packet_put (hne hnot)⟩

end Registry

/-- Whatever the host answers, its tags lead to the latest analyzers that it gave them to: every
table is a map of those, the answer alone decides whether an analyzer is registered, and no table of
another kind is touched. -/
theorem tables_map_given_tags {H : Type} [Host H] (host : H) (failures : List RuntimeFailure)
    (xs : List Registration) :
    let start := Registry.new host failures
    let r := Registry.registerAll xs start
    r.analyzers.Reflects (Registry.admitted xs start) ∧ ∀ x : Registration,
      Registry.SparesOthers x r ∧
        ∀ n, x.newcomer? (Host.supportsFileToggle r.host) = some n → Registry.Decided x n r := by
  intro start r
  refine ⟨?_, fun x => ⟨Registry.sparesOthers x r, fun n => Registry.decided⟩⟩
  exact Registry.reflects_registerAll xs (r := start) Analyzers.reflects_empty

/-- A host that only deals out the tags that were laid down, and knows of nothing else. -/
structure Dealer where
  tags : List (Option Tag)

instance : Host Dealer where
  version _ := 0
  pluginPath _ := ""
  supportsFileToggle _ := true
  protocolId? _ _ := none
  fileId? _ _ := none
  tagTypeName _ kind := kind.name
  tagOfValue? _ _ _ := none
  identHasType _ _ := false
  constant? _ _ := none
  addSearchPath _ h := h
  addComponent _ h := (0, h)
  initComponent _ h := (h.tags.head?.join, ⟨h.tags.tail⟩)
  addScriptLocation _ h := h
  setProtocolEnabled _ _ h := h
  setFileEnabled _ _ h := (false, h)
  bindPort _ _ _ h := h
  lookupIdent _ _ h := (none, h)
  installIdent _ _ _ h := (0, h)
  exportIdent _ h := h
  setIdentType _ _ h := h
  addEventHandler _ h := h
  enqueueEvent _ _ h := h

/-- Numbers that descend and come again, none, one of number zero and one of another kind. -/
def misdeal : Dealer := ⟨[some ⟨.packet, 7⟩, some ⟨.packet, 2⟩, none, some ⟨.packet, 0⟩,
  some ⟨.file, 9⟩, some ⟨.packet, 7⟩, some ⟨.file, 9⟩]⟩

def packetHand : List Registration :=
  ["A", "B", "C", "D", "E", "F"].map fun name => .packet ⟨name, ""⟩

theorem misdealt_packets :
    let r := Registry.registerAll packetHand (.new misdeal [])
    r.analyzers.packet.toList.map (fun p => (p.id, p.decl.name)) = [(2, "B"), (7, "F")] ∧
      r.analyzers.packet.capacity = 8 ∧
      (Registry.register (.packet ⟨"G", ""⟩) r).state.analyzers = r.analyzers := by
  have hdealt := tables_map_given_tags misdeal [] packetHand
  refine ⟨by decide +kernel, by decide +kernel, ?_⟩
  exact (((hdealt.2 (.packet ⟨"G", ""⟩)).2 _ rfl).refused (by decide +kernel)).2

end TrafficAnalyzers
