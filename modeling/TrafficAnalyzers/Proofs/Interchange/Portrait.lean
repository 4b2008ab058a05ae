import Mathlib.Data.Multiset.MapFold
import Mathlib.Data.Set.Insert
import Mathlib.Logic.Function.Conjugate
import TrafficAnalyzers.Proofs.Resolution.Finish
import TrafficAnalyzers.Proofs.Retention
/-!
What a registry is but for tags, handles and the order of names. Main statement: two registrations
that have no name in common make the same of it in either order.
-/
namespace TrafficAnalyzers

section Filing

variable {κ α : Type} [DecidableEq κ]

/-- The members of a list under one of their keys, in their order. -/
def filed (key : α → κ) (l : List α) (k : κ) : List α := l.filter (key · = k)

/-- Changes what is filed under a key. -/
def alter (k : κ) (g : List α → List α) (f : κ → List α) : κ → List α :=
  Function.update f k (g (f k))

theorem filed_eq_nil_iff {key : α → κ} {l : List α} {k : κ} :
    filed key l k = [] ↔ l.findIdx? (key · = k) = none := by
  rw [filed, List.filter_eq_nil_iff, List.findIdx?_eq_none_iff]
  simp

theorem filed_of_findIdx? {key : α → κ} {l : List α} {k : κ} {n : Nat}
    (hn : l.findIdx? (key · = k) = some n) : ∃ a as, filed key l k = a :: as := by
  apply List.exists_cons_of_ne_nil
  rw [Ne, filed_eq_nil_iff, hn]
  exact Option.some_ne_none n

theorem alter_congr {k : κ} {g g' : List α → List α} {f : κ → List α}
    (h : g (f k) = g' (f k)) : alter k g f = alter k g' f := by
  rw [alter, h, alter]

theorem alter_id (k : κ) (f : κ → List α) : alter k id f = f := Function.update_eq_self k f

theorem filed_concat (key : α → κ) (l : List α) (a : α) :
    filed key (l ++ [a]) = alter (key a) (· ++ [a]) (filed key l) := by
  funext k
  rw [alter, Function.update_apply, filed, List.filter_append]
  by_cases hk : k = key a
  · subst hk
    simp [filed]
  · simp [hk, Ne.symm hk, filed]

/-- The first one with a key is the first one filed under it. -/
theorem filed_modify {key : α → κ} {f : α → α} (hf : ∀ a, key (f a) = key a) {l : List α} {k : κ}
    {n : Nat} (hn : l.findIdx? (key · = k) = some n) :
    filed key (l.modify n f) = alter k (List.modifyHead f) (filed key l) := by
  funext j
  rw [alter, Function.update_apply]
  induction l generalizing n with
  | nil => simp at hn
  | cons a l ih =>
    rw [List.findIdx?_cons] at hn
    by_cases ha : key a = k
    · obtain rfl : n = 0 := by simpa [ha, eq_comm] using hn
      by_cases hj : j = k
      · simp [filed, hf, ha, hj]
      · simp [filed, hf, ha, hj, Ne.symm hj]
    · obtain ⟨m, hm, rfl⟩ : ∃ m, l.findIdx? (key · = k) = some m ∧ m + 1 = n := by
        simpa [ha] using hn
      have ih := ih hm
      by_cases hj : j = k
      · subst hj
        simpa [filed, ha] using ih
      · by_cases haj : key a = j <;> simpa [filed, haj, hj] using ih

/-- Lists with the same members under every key are the same but for their order. -/
theorem perm_of_filed [DecidableEq α] {key : α → κ} {l l' : List α}
    (h : filed key l = filed key l') : l.Perm l' := by
  rw [List.perm_iff_count]
  intro a
  have hcount (l : List α) : l.count a = (filed key l (key a)).count a := by
    rw [filed, List.count_filter]
    simp
  rw [hcount l, hcount l', h]

theorem commute_alter {k k' : κ} {g g' : List α → List α} (h : k = k' → g = g') :
    Function.Commute (alter k g) (alter k' g') := by
  intro f
  by_cases hk : k = k'
  · rw [hk, h hk]
  · funext j
    simp only [alter, Function.update_apply]
    by_cases hj : j = k <;> by_cases hj' : j = k' <;> simp_all

end Filing

/-- The name of the component that carries a tag. -/
def LocalHost.nameOf? (h : LocalHost) (tag : Tag) : Option String :=
  (h.components.find? (·.tag = some tag)).map (·.component.name)

/-- The record of an analyzer of any kind. -/
inductive AnalyzerRecord where
  | protocol (p : ProtocolAnalyzer)
  | file (p : FileAnalyzer)
  | packet (p : PacketAnalyzer)
  deriving DecidableEq, Repr

namespace AnalyzerRecord

def kind : AnalyzerRecord → Kind
  | protocol _ => .protocol
  | file _ => .file
  | packet _ => .packet

def descriptor : AnalyzerRecord → Descriptor
  | protocol p => p.descriptor
  | file p => p.descriptor
  | packet p => p.descriptor

def name (d : AnalyzerRecord) : String := d.descriptor.name

/-- The tag of the analyzer that it replaces. -/
def replaced? (d : AnalyzerRecord) : Option Tag := d.descriptor.replaces.map (⟨d.kind, ·⟩)

/-- The record without its own number and that of the analyzer it replaces. -/
def untagged : AnalyzerRecord → AnalyzerRecord
  | protocol p => .protocol { p with id := 0, replaces := none }
  | file p => .file { p with id := 0, replaces := none }
  | packet p => .packet { p with id := 0 }

@[simp] theorem name_untagged (d : AnalyzerRecord) : d.untagged.name = d.name := by
  cases d <;> rfl

end AnalyzerRecord

namespace Analyzers

/-- The records of a kind, by ascending number. -/
def records (a : Analyzers) : Kind → List AnalyzerRecord
  | .protocol => a.protocol.toList.map .protocol
  | .file => a.file.toList.map .file
  | .packet => a.packet.toList.map .packet

/-- A record is found in the slot of its tag. -/
theorem Placed.descriptor?_of_mem {a : Analyzers} (ha : a.Placed) {kind : Kind}
    {d : AnalyzerRecord} (hd : d ∈ a.records kind) :
    d.kind = kind ∧ a.descriptor? ⟨kind, d.descriptor.id⟩ = some d.descriptor := by
  cases kind <;> obtain ⟨p, hp, rfl⟩ := List.mem_map.mp hd
  · exact ⟨rfl, congrArg (Option.map ProtocolAnalyzer.descriptor) (ha.protocol.mem_toList.mp hp)⟩
  · exact ⟨rfl, congrArg (Option.map FileAnalyzer.descriptor) (ha.file.mem_toList.mp hp)⟩
  · exact ⟨rfl, congrArg (Option.map PacketAnalyzer.descriptor) (ha.packet.mem_toList.mp hp)⟩

end Analyzers

namespace LocalHost

/-- What a registration finds and leaves as it is. -/
def rest (h : LocalHost) : LocalHost :=
  { h with
    nextProtocol := 0
    nextFile := 0
    nextPacket := 0
    components := []
    scriptLocations := []
    portBindings := []
    queuedEvents := []
    idents := []
    eventHandlers := .empty }

/-- A record without tags, and the name of the analyzer that it replaces. -/
def depict (h : LocalHost) (d : AnalyzerRecord) : AnalyzerRecord × Option String :=
  (d.untagged, d.replaced?.bind h.nameOf?)

/-- A binding with the name of the analyzer that it is for. -/
def depictBinding (h : LocalHost) (b : PortBinding) : Option String × HostTransport × UInt16 :=
  (h.nameOf? ⟨.protocol, b.id⟩, b.transport, b.port)

/-- An event with the names of the analyzers that it is for. -/
def depictEvent (h : LocalHost) (e : QueuedEvent) : String × List (Option String ⊕ String) :=
  (e.name, e.args.map fun
    | .fileTag id => .inl (h.nameOf? ⟨.file, id⟩)
    | .text value => .inr value)

end LocalHost

/-- What comes last among its kind comes last among those of its kind and name. -/
theorem filed_update (rs : Kind → List (AnalyzerRecord × Option String)) (kind : Kind)
    (e : AnalyzerRecord × Option String) :
    (fun k : Kind × String =>
        filed (·.1.name) (Function.update rs kind (rs kind ++ [e]) k.1) k.2) =
      alter (kind, e.1.name) (· ++ [e]) fun k => filed (·.1.name) (rs k.1) k.2 := by
  funext ⟨kind', name⟩
  rw [alter, Function.update_apply, Function.update_apply]
  by_cases hkind : kind' = kind
  · subst hkind
    rw [if_pos rfl, filed_concat, alter, Function.update_apply]
    by_cases hname : name = e.1.name
    · rw [if_pos hname, if_pos (congrArg (kind', ·) hname)]
    · rw [if_neg hname, if_neg fun hk => hname (congrArg Prod.snd hk)]
  · rw [if_neg hkind, if_neg fun hk => hkind (congrArg Prod.fst hk)]

/-- The kind and the name of a component. -/
def ComponentRecord.key (c : ComponentRecord) : Kind × String :=
  (c.component.entry.kind, c.component.name)

def ComponentRecord.untagged (c : ComponentRecord) : ComponentRecord := { c with tag := none }

def ComponentRecord.off (c : ComponentRecord) : ComponentRecord := { c with enabled := false }

/-- A registry but for its tags and handles, and for the order of what has different names. -/
@[ext]
structure Portrait where
  rest : LocalHost
  components : Kind × String → List ComponentRecord
  /-- With each record stands the name of the analyzer that it replaces. -/
  records : Kind × String → List (AnalyzerRecord × Option String)
  locations : Set String
  parsers : String → List Parser
  idents : String → List Ident
  events : Set String
  handlers : Set String
  /-- Names stand in the place of tags. -/
  bindings : Multiset (Option String × HostTransport × UInt16)
  queued : Multiset (String × List (Option String ⊕ String))
  options : Option RuntimeOptions
  failures : List RuntimeFailure

def Registry.portrait (r : Registry LocalHost) : Portrait where
  rest := r.host.rest
  components := filed ComponentRecord.key (r.host.components.map (·.untagged))
  records k := filed (·.1.name) ((r.analyzers.records k.1).map r.host.depict) k.2
  locations := { l | l ∈ r.host.scriptLocations }
  parsers := filed Parser.name r.runtime.parsers
  idents := filed Ident.name r.host.idents
  events := { name | name ∈ r.events.keys }
  handlers := { name | name ∈ r.host.eventHandlers.keys }
  bindings := r.host.portBindings.map r.host.depictBinding
  queued := r.host.queuedEvents.map r.host.depictEvent
  options := r.runtime.options
  failures := r.runtime.failures

/-- An analyzer that comes in, with its record but for tags, and the name that it replaces. -/
structure Newcomer where
  entry : Entry
  name : String
  replaces : Option String
  record : AnalyzerRecord

namespace Newcomer

def key (n : Newcomer) : Kind × String := (n.entry.kind, n.name)

/-- Its component is turned on. -/
def component (n : Newcomer) : ComponentRecord := ⟨⟨n.name, n.entry⟩, none, true, false⟩

/-- Turns off the oldest component of the name that it replaces. -/
def supersede (n : Newcomer) :
    (Kind × String → List ComponentRecord) → Kind × String → List ComponentRecord :=
  n.replaces.elim id fun name => alter (n.entry.kind, name) (List.modifyHead (·.off))

def join (n : Newcomer) :
    (Kind × String → List ComponentRecord) → Kind × String → List ComponentRecord :=
  alter n.key (· ++ [n.component]) ∘ n.supersede

/-- The name that it replaces, if there is a component of that name. -/
def replaced? (n : Newcomer) (cs : Kind × String → List ComponentRecord) : Option String :=
  n.replaces.filter fun name => !(cs (n.entry.kind, name)).isEmpty

/-- Neither is what the other one is or replaces. -/
structure Apart (n n' : Newcomer) : Prop where
  key : n.key ≠ n'.key
  left : ∀ name, n.replaces = some name → (n.entry.kind, name) ≠ n'.key
  right : ∀ name, n'.replaces = some name → (n'.entry.kind, name) ≠ n.key

variable {n n' : Newcomer}

theorem Apart.symm (h : n.Apart n') : n'.Apart n := ⟨h.key.symm, h.right, h.left⟩

theorem commute_supersede (n n' : Newcomer) : Function.Commute n.supersede n'.supersede := by
  unfold supersede
  cases n.replaces with
  | none => exact Function.Commute.id_left
  | some name =>
    cases n'.replaces with
    | none => exact Function.Commute.id_right
    | some name' => exact commute_alter fun _ => rfl

theorem Apart.commute_supersede (h : n.Apart n') :
    Function.Commute n.supersede (alter n'.key (· ++ [n'.component])) := by
  unfold supersede
  cases hr : n.replaces with
  | none => exact Function.Commute.id_left
  | some name => exact commute_alter fun hk => absurd hk (h.left name hr)

/-- Two that are apart come in in either order. -/
theorem Apart.commute_join (h : n.Apart n') : Function.Commute n.join n'.join := by
  refine Function.Commute.comp_left (.comp_right ?_ ?_) (.comp_right ?_ ?_)
  · exact commute_alter fun hk => absurd hk h.key
  · exact h.symm.commute_supersede.symm
  · exact h.commute_supersede
  · exact Newcomer.commute_supersede n n'

theorem isEmpty_supersede (n : Newcomer) (cs : Kind × String → List ComponentRecord)
    (k : Kind × String) : (n.supersede cs k).isEmpty = (cs k).isEmpty := by
  unfold supersede
  cases n.replaces with
  | none => rfl
  | some name =>
    simp only [Option.elim_some, alter, Function.update_apply]
    split
    next hk => rw [hk]; cases cs (n.entry.kind, name) <;> rfl
    next => rfl

/-- What one replaces is there or not, whether the other one came in or not. -/
theorem Apart.replaced?_join (h : n.Apart n') (cs : Kind × String → List ComponentRecord) :
    n.replaced? (n'.join cs) = n.replaced? cs := by
  unfold replaced?
  cases hr : n.replaces with
  | none => rfl
  | some name =>
    have hempty : (n'.join cs (n.entry.kind, name)).isEmpty =
        (cs (n.entry.kind, name)).isEmpty := by
      rw [join, Function.comp_apply, alter, Function.update_of_ne (h.left name hr),
        isEmpty_supersede]
    simp [Option.filter, hempty]

end Newcomer

namespace Registration

/-- The empty name asks for no analyzer to be replaced. -/
def wanted? (name : String) : Option String := if name = "" then none else some name

/-- The kind and the name of the analyzer that is declared. -/
def analyzer? : Registration → Option (Kind × String)
  | protocol decl => some (.protocol, decl.name)
  | file decl => some (.file, decl.name)
  | packet decl => some (.packet, decl.name)
  | parser _ | event _ | enumType .. => none

/-- Whether it declares an analyzer of the kind. -/
def declares (kind : Kind) (x : Registration) : Bool := x.analyzer?.map (·.1) = some kind

/-- The kind and the name of the analyzer that is to be replaced. -/
def replaced? : Registration → Option (Kind × String)
  | protocol decl => (wanted? decl.replaces).map (Kind.protocol, ·)
  | file decl => (wanted? decl.replaces).map (Kind.file, ·)
  | packet _ | parser _ | event _ | enumType .. => none

def parser? : Registration → Option Parser
  | parser p => some p
  | protocol _ | file _ | packet _ | event _ | enumType .. => none

def event? : Registration → Option String
  | event name => some name
  | protocol _ | file _ | packet _ | parser _ | enumType .. => none

/-- The qualified name of an event or an enum type, and what becomes of the identifiers of that
name. -/
def ident? : Registration → Option (String × (List Ident → List Ident))
  | event name => some (name, fun
    | [] => [⟨name, true, none⟩]
    | i :: is => { i with exported := true } :: is)
  | enumType space id labels => some (LocalHost.qualify id space, fun
    | [] => [Registry.enumIdent space id labels]
    | i :: is => i :: is)
  | protocol _ | file _ | packet _ | parser _ => none

/-- The analyzer that comes in, if there is an entry for its transport. Only a host that can turn
off file analyzers has them replaced. -/
def newcomer? (fileToggle : Bool) : Registration → Option Newcomer
  | protocol decl => (Registry.entryFor? decl.transport).map fun entry =>
    ⟨entry, decl.name, wanted? decl.replaces,
      .protocol ⟨0, decl, scriptLocation decl.name, none, none, none⟩⟩
  | file decl => some ⟨.file, decl.name, if fileToggle then wanted? decl.replaces else none,
    .file ⟨0, decl, scriptLocation decl.name, none, none⟩⟩
  | packet decl => some ⟨.packet, decl.name, none,
    .packet ⟨0, decl, scriptLocation decl.name, none⟩⟩
  | parser _ | event _ | enumType .. => none

/-- The two have no name in common: no analyzer of a kind, no parser and no identifier, and neither
declares what the other one replaces. -/
structure Independent (x y : Registration) : Prop where
  analyzer : ∀ k ∈ x.analyzer?, y.analyzer? ≠ some k
  parser : ∀ p ∈ x.parser?, ∀ q ∈ y.parser?, p.name ≠ q.name
  ident : ∀ i ∈ x.ident?, ∀ j ∈ y.ident?, i.1 ≠ j.1
  left : ∀ k ∈ x.replaced?, y.analyzer? ≠ some k
  right : ∀ k ∈ y.replaced?, x.analyzer? ≠ some k

instance (x y : Registration) : Decidable (x.Independent y) :=
  decidable_of_iff ((∀ k ∈ x.analyzer?, y.analyzer? ≠ some k) ∧
    (∀ p ∈ x.parser?, ∀ q ∈ y.parser?, p.name ≠ q.name) ∧
    (∀ i ∈ x.ident?, ∀ j ∈ y.ident?, i.1 ≠ j.1) ∧
    (∀ k ∈ x.replaced?, y.analyzer? ≠ some k) ∧ ∀ k ∈ y.replaced?, x.analyzer? ≠ some k)
    ⟨fun ⟨ha, hp, hi, hl, hr⟩ => ⟨ha, hp, hi, hl, hr⟩,
      fun h => ⟨h.analyzer, h.parser, h.ident, h.left, h.right⟩⟩

variable {x y : Registration} {b : Bool} {n n' : Newcomer}

theorem of_newcomer? (h : x.newcomer? b = some n) : x.analyzer? = some n.key ∧
    ∀ name, n.replaces = some name → x.replaced? = some (n.entry.kind, name) := by
  cases x with
  | protocol decl =>
    obtain ⟨entry, hentry, rfl⟩ := Option.map_eq_some_iff.mp h
    have hkind := Registry.kind_of_entryFor? hentry
    refine ⟨?_, fun name hname => ?_⟩
    · simp [analyzer?, Newcomer.key, hkind]
    · have hwanted : wanted? decl.replaces = some name := hname
      simp [replaced?, hwanted, hkind]
  | file decl =>
    obtain rfl := Option.some.inj h
    refine ⟨rfl, fun name hname => ?_⟩
    have hwanted : (if b then wanted? decl.replaces else none) = some name := hname
    rw [Option.ite_none_right_eq_some] at hwanted
    simp [replaced?, hwanted.2, Entry.kind]
  | packet decl =>
    obtain rfl := Option.some.inj h
    refine ⟨rfl, fun name hname => ?_⟩
    contradiction
  | parser | event | enumType => contradiction

theorem Independent.apart (h : x.Independent y) (hn : x.newcomer? b = some n)
    (hn' : y.newcomer? b = some n') : n.Apart n' := by
  obtain ⟨hx, hreplaces⟩ := of_newcomer? hn
  obtain ⟨hy, hreplaces'⟩ := of_newcomer? hn'
  refine ⟨fun hk => ?_, fun name hname hk => ?_, fun name hname hk => ?_⟩
  · exact h.analyzer n.key hx (hk ▸ hy)
  · exact h.left _ (hreplaces name hname) (hk ▸ hy)
  · exact h.right _ (hreplaces' name hname) (hk ▸ hx)

end Registration

namespace Portrait

/-- What a registration makes of the registry of a portrait. -/
def act (x : Registration) (P : Portrait) : Portrait :=
  let n := x.newcomer? P.rest.fileToggle
  { P with
    components := n.elim P.components fun n => n.join P.components
    records := n.elim P.records fun n =>
      alter n.key (· ++ [(n.record, n.replaced? P.components)]) P.records
    locations := n.elim P.locations fun n => insert (scriptLocation n.name) P.locations
    parsers := x.parser?.elim P.parsers fun p => alter p.name (· ++ [p]) P.parsers
    idents := x.ident?.elim P.idents fun i => alter i.1 i.2 P.idents
    events := x.event?.elim P.events fun name => insert name P.events
    handlers := x.event?.elim P.handlers fun name => insert name P.handlers }

/-- What a newcomer makes of it. -/
def receive (n : Newcomer) (P : Portrait) : Portrait :=
  { P with
    components := n.join P.components
    records := alter n.key (· ++ [(n.record, n.replaced? P.components)]) P.records
    locations := insert (scriptLocation n.name) P.locations }

/-- A registration of an analyzer does no more than let it in. -/
theorem act_of_analyzer {x : Registration} {k : Kind × String} (hx : x.analyzer? = some k)
    (P : Portrait) : P.act x =
      (x.newcomer? P.rest.fileToggle).elim P fun n => P.receive n := by
  cases x with
  | protocol decl =>
    cases hn : (Registration.protocol decl).newcomer? P.rest.fileToggle <;>
      simp only [act, hn] <;> rfl
  | file decl => rfl
  | packet decl => rfl
  | parser | event | enumType => contradiction

/-- What two options change in turn, they change in either order. -/
theorem elim_comm {α σ : Type} (o o' : Option α) (f : α → σ → σ)
    (h : ∀ a a', o = some a → o' = some a' → Function.Commute (f a) (f a')) (s : σ) :
    o'.elim (o.elim s (f · s)) (f · (o.elim s (f · s))) =
      o.elim (o'.elim s (f · s)) (f · (o'.elim s (f · s))) := by
  cases o with
  | none => rfl
  | some a =>
    cases o' with
    | none => rfl
    | some a' => exact (h a a' rfl rfl s).symm

/-- Registrations without a name in common can be made in either order. -/
theorem act_comm {x y : Registration} (h : x.Independent y) (P : Portrait) :
    (P.act x).act y = (P.act y).act x := by
  have happart {n n' : Newcomer} (hn : x.newcomer? P.rest.fileToggle = some n)
      (hn' : y.newcomer? P.rest.fileToggle = some n') : n.Apart n' := h.apart hn hn'
  ext : 1
  case components =>
    exact elim_comm _ _ Newcomer.join (fun n n' hn hn' => (happart hn hn').commute_join) _
  case records =>
    simp only [act]
    cases hn : x.newcomer? P.rest.fileToggle with
    | none => rfl
    | some n =>
      cases hn' : y.newcomer? P.rest.fileToggle with
      | none => rfl
      | some n' =>
        have hapart := happart hn hn'
        simp only [Option.elim_some, hapart.replaced?_join, hapart.symm.replaced?_join]
        exact (commute_alter fun hk => absurd hk.symm hapart.key) P.records
  case locations =>
    exact elim_comm _ _ (fun n : Newcomer => insert (scriptLocation n.name))
      (fun _ _ _ _ l => Set.insert_comm _ _ l) _
  case parsers =>
    exact elim_comm _ _ (fun p : Parser => alter p.name (· ++ [p]))
      (fun p q hp hq => commute_alter fun hk => absurd hk (h.parser p hp q hq)) _
  case idents =>
    exact elim_comm _ _ (fun i : String × (List Ident → List Ident) => alter i.1 i.2)
      (fun i j hi hj => commute_alter fun hk => absurd hk (h.ident i hi j hj)) _
  case events => exact elim_comm _ _ insert (fun _ _ _ _ s => Set.insert_comm _ _ s) _
  case handlers => exact elim_comm _ _ insert (fun _ _ _ _ s => Set.insert_comm _ _ s) _
  all_goals rfl

/-- Of two lists of registrations, none of one having a name in common with one of the other, either
can be made first. -/
theorem foldl_act_comm {m₁ m₂ : List Registration} (h : ∀ x ∈ m₁, ∀ y ∈ m₂, x.Independent y)
    (P : Portrait) : m₂.foldl (fun P x => P.act x) (m₁.foldl (fun P x => P.act x) P) =
      m₁.foldl (fun P x => P.act x) (m₂.foldl (fun P x => P.act x) P) := by
  have hpast {x : Registration} {m : List Registration} (hx : ∀ y ∈ m, x.Independent y)
      (P : Portrait) : m.foldl (fun P x => P.act x) (P.act x) =
        (m.foldl (fun P x => P.act x) P).act x := by
    induction m generalizing P with
    | nil => rfl
    | cons y m ih =>
      obtain ⟨hxy, hx⟩ := List.forall_mem_cons.mp hx
      rw [List.foldl_cons, act_comm hxy, ih hx, List.foldl_cons]
  induction m₁ generalizing P with
  | nil => rfl
  | cons x m₁ ih =>
    obtain ⟨hx, hm₁⟩ := List.forall_mem_cons.mp h
    rw [List.foldl_cons, ih hm₁, hpast hx, List.foldl_cons]

end Portrait

end TrafficAnalyzers
