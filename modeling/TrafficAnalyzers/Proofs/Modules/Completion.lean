import TrafficAnalyzers.Proofs.Coupling
import TrafficAnalyzers.Proofs.Modules.Once
import TrafficAnalyzers.Proofs.Retention
import TrafficAnalyzers.Proofs.Turns
/-!
What is known of a module that a load finds on the list. Main statement: an earlier load opened it,
and all that it registered before its first fault is still there, which is everything exactly if
that load succeeded.
-/
namespace TrafficAnalyzers

namespace Registry

section Performed

variable {H : Type} [Host H]

/-- The registrations that a module carries out, each with the registry that it finds; they end
before the first step that fails. -/
def performed : Script → Registry H → List (Registration × Registry H)
  | [], _ => []
  | .fail _ :: _, _ => []
  | .register registration :: steps, r =>
    match (register registration r).result with
    | .ok () => (registration, r) :: performed steps (register registration r).state
    | .error _ => []

theorem run_register (registration : Registration) (steps : Script) (r : Registry H) :
    run (.register registration :: steps) r =
      Op.andThen (register registration r) fun _ => run steps := rfl

theorem performed_prefix (script : Script) (r : Registry H) :
    (performed script r).map (Step.register ·.1) <+: script := by
  induction script generalizing r with
  | nil => exact List.prefix_refl _
  | cons step steps ih =>
    cases step with
    | fail fault => exact List.nil_prefix
    | register registration =>
      simp only [performed]
      split
      · exact (List.prefix_cons_inj _).mpr (ih _)
      · exact List.nil_prefix

/-- A module registers all it brings exactly if no step fails. -/
theorem run_ok_iff (script : Script) (r : Registry H) : (run script r).result = .ok () ↔
    (performed script r).map (Step.register ·.1) = script := by
  induction script generalizing r with
  | nil => exact iff_of_true rfl rfl
  | cons step steps ih =>
    cases step with
    | fail fault => exact iff_of_false (fun h => by cases h) (fun h => by cases h)
    | register registration =>
      rw [run_register]
      simp only [performed, Op.andThen]
      cases hresult : (register registration r).result with
      | error fault => exact iff_of_false (fun h => by cases h) (fun h => by cases h)
      | ok => simp [ih]

end Performed

/-- What a registration, carried out in the registry `before`, brought is there in `r`: the parser
in the runtime; the record of an analyzer in its table, as it was declared, and its component at the
host; an event in the table of events, with its handler and its identifier; the identifier of an
enum type, with its labels unless one of that name was there before. A protocol analyzer over a
transport without an entry is left out, and of analyzers all this is said only as long as no kind
runs out of numbers. -/
def Holds (before r : Registry LocalHost) : Registration → Prop
  | .parser parser => parser ∈ r.runtime.parsers
  | .protocol decl => r.host.Roomy → entryFor? decl.transport ≠ none →
    ∃ p, p.decl = decl ∧
      r.analyzers.protocol.get? p.id = some p ∧ r.host.Fits ⟨.protocol, p.id⟩ p.descriptor
  | .file decl => r.host.Roomy → ∃ p, p.decl = decl ∧
      r.analyzers.file.get? p.id = some p ∧ r.host.Fits ⟨.file, p.id⟩ p.descriptor
  | .packet decl => r.host.Roomy → ∃ p, p.decl = decl ∧
      r.analyzers.packet.get? p.id = some p ∧ r.host.Fits ⟨.packet, p.id⟩ p.descriptor
  | .event name => name ∈ r.events.keys ∧ name ∈ r.host.eventHandlers.keys ∧
    ∃ ident ∈ r.host.idents, ident.name = eventName name ∧ ident.exported = true
  | .enumType space id labels => ∃ ident ∈ r.host.idents,
    ident.name = LocalHost.qualify id space ∧
      ((∀ old ∈ before.host.idents, old.name ≠ LocalHost.qualify id space) →
        ident.exported = true ∧
          ident.type = some (.enum (space ++ "::" ++ id) (enumLabels id labels)))

variable {before r r' : Registry LocalHost}

/-- In a table of one kind, a record is found at its own number, and the component of its tag fits
it. -/
theorem Ordered.found (hr : r.Ordered) (hroom : r.host.Roomy) {δ : Type} [Slotted δ] {kind : Kind}
    {t : SlotTable δ} {describe : δ → Descriptor} (ht : t.Placed)
    (htable : ∀ id, r.analyzers.descriptor? ⟨kind, id⟩ = (t.get? id).map describe) {id : UInt32}
    {d : δ} (hd : t.get? id = some d) : t.get? (Slotted.id d) = some d ∧
      r.host.Fits ⟨kind, Slotted.id d⟩ (describe d) := by
  obtain ⟨rfl, -⟩ := ht.id_eq hd
  refine ⟨hd, (hr.sound hroom).fits ?_⟩
  rw [htable, hd, Option.map_some]

theorem Ordered.protocol (hr : r.Ordered) (hroom : r.host.Roomy) {id : UInt32}
    {p : ProtocolAnalyzer} (hp : r.analyzers.protocol.get? id = some p) :
    r.analyzers.protocol.get? p.id = some p ∧ r.host.Fits ⟨.protocol, p.id⟩ p.descriptor :=
  hr.found hroom hr.placed.protocol (fun _ => rfl) hp

theorem Ordered.file (hr : r.Ordered) (hroom : r.host.Roomy) {id : UInt32} {p : FileAnalyzer}
    (hp : r.analyzers.file.get? id = some p) :
    r.analyzers.file.get? p.id = some p ∧ r.host.Fits ⟨.file, p.id⟩ p.descriptor :=
  hr.found hroom hr.placed.file (fun _ => rfl) hp

theorem Ordered.packet (hr : r.Ordered) (hroom : r.host.Roomy) {id : UInt32} {p : PacketAnalyzer}
    (hp : r.analyzers.packet.get? id = some p) :
    r.analyzers.packet.get? p.id = some p ∧ r.host.Fits ⟨.packet, p.id⟩ p.descriptor :=
  hr.found hroom hr.placed.packet (fun _ => rfl) hp

/-- What a registration brought stays. -/
theorem Holds.keep {registration : Registration} (h : Holds before r registration)
    (hr : r.Ordered) (hkeeps : Keeps r r') : Holds before r' registration := by
  have hr' := hr.leads hkeeps.leads
  cases registration with
  | parser parser => exact hkeeps.parsers.subset h
  | protocol decl =>
    intro hroom hentry
    obtain ⟨p, rfl, hp, -⟩ := h (hr.roomy hkeeps.leads hroom) hentry
    obtain ⟨q, hq, hqp⟩ := (hkeeps.records hr hroom).protocol p.id p hp
    exact ⟨q, (congrArg ProtocolAnalyzer.decl hqp :), hr'.protocol hroom hq⟩
  | file decl =>
    intro hroom
    obtain ⟨p, rfl, hp, -⟩ := h (hr.roomy hkeeps.leads hroom)
    obtain ⟨q, hq, hqp⟩ := (hkeeps.records hr hroom).file p.id p hp
    exact ⟨q, (congrArg FileAnalyzer.decl hqp :), hr'.file hroom hq⟩
  | packet decl =>
    intro hroom
    obtain ⟨p, rfl, hp, -⟩ := h (hr.roomy hkeeps.leads hroom)
    obtain ⟨q, hq, hqp⟩ := (hkeeps.records hr hroom).packet p.id p hp
    exact ⟨q, (congrArg PacketAnalyzer.decl hqp :), hr'.packet hroom hq⟩
  | event name =>
    obtain ⟨hevent, hhandler, ident, hident, hname, hexported⟩ := h
    obtain ⟨ident', hident', hwithin⟩ := hkeeps.idents.mem hident
    exact ⟨hkeeps.events name hevent, hkeeps.handlers name hhandler, ident', hident',
      hwithin.name.trans hname, hwithin.exported hexported⟩
  | enumType space id labels =>
    obtain ⟨ident, hident, hname, hnew⟩ := h
    obtain ⟨ident', hident', hwithin⟩ := hkeeps.idents.mem hident
    refine ⟨ident', hident', hwithin.name.trans hname, fun hnone => ?_⟩
    obtain ⟨hexported, htype⟩ := hnew hnone
    exact ⟨hwithin.exported hexported, hwithin.type _ htype⟩

/-- An analyzer that is added without a fault has its record at a number that is not zero. -/
theorem analyzers_of_adopted {entry : Entry} {name : String} {replaces : Option UInt32}
    {put : UInt32 → Analyzers → Analyzers} {o : Outcome (Registry LocalHost) Unit}
    (hout : o.silent = r.adopted entry name replaces put) (hok : o.result = .ok ()) :
    r.host.next entry.kind ≠ 0 ∧ o.state.analyzers = put (r.host.next entry.kind) r.analyzers := by
  have hresult : (r.adopted entry name replaces put).1 = .ok () := hout ▸ hok
  have hstate : o.state = (r.adopted entry name replaces put).2 := congrArg Prod.snd hout
  rw [hstate]
  unfold adopted at hresult ⊢
  by_cases h0 : r.host.next entry.kind = 0
  · rw [if_pos h0] at hresult
    contradiction
  · rw [if_neg h0]
    exact ⟨h0, rfl⟩

theorem holds_registerProtocol {decl : ProtocolDecl} (hr : r.Ordered)
    (hok : (registerProtocol decl r).result = .ok ()) :
    Holds before (registerProtocol decl r).state (.protocol decl) := by
  intro hroom hentry
  obtain ⟨entry, hentry⟩ := Option.ne_none_iff_exists'.mp hentry
  obtain ⟨h0, hanalyzers⟩ := analyzers_of_adopted (silent_registerProtocol hentry r) hok
  have hslot := Analyzers.get?_putProtocol (a := r.analyzers) decl
    (r.roster.replaced? .protocol decl.replaces) h0
  rw [← hanalyzers] at hslot
  have hr' := hr.leads (follows_registerProtocol decl r)
  exact ⟨_, rfl, hr'.protocol hroom hslot⟩

theorem holds_registerFile {decl : FileDecl} (hr : r.Ordered)
    (hok : (registerFile decl r).result = .ok ()) :
    Holds before (registerFile decl r).state (.file decl) := by
  intro hroom
  obtain ⟨h0, hanalyzers⟩ := analyzers_of_adopted (silent_registerFile decl r) hok
  have hslot := Analyzers.get?_putFile (a := r.analyzers) decl
    (r.roster.replacedFile? decl.replaces) h0
  rw [← hanalyzers] at hslot
  have hr' := hr.leads (follows_registerFile decl r)
  exact ⟨_, rfl, hr'.file hroom hslot⟩

theorem holds_registerPacket {decl : PacketDecl} (hr : r.Ordered)
    (hok : (registerPacket decl r).result = .ok ()) :
    Holds before (registerPacket decl r).state (.packet decl) := by
  intro hroom
  obtain ⟨h0, hanalyzers⟩ := analyzers_of_adopted (silent_registerPacket decl r) hok
  have hslot := Analyzers.get?_putPacket (a := r.analyzers) decl h0
  rw [← hanalyzers] at hslot
  have hr' := hr.leads (follows_registerPacket decl r)
  exact ⟨_, rfl, hr'.packet hroom hslot⟩

theorem mem_eventIdents (name : String) (h : LocalHost) :
    ∃ i ∈ eventIdents name h, i.name = eventName name ∧ i.exported = true := by
  unfold eventIdents
  split
  next n hn =>
    obtain ⟨i, hi, hname⟩ := LocalHost.getElem?_of_identIndex? hn
    refine ⟨{ i with exported := true }, List.mem_of_getElem? (i := n) ?_, hname, rfl⟩
    rw [List.getElem?_modify, hi]
    simp
  next => exact ⟨_, List.mem_append_right _ (List.mem_singleton.mpr rfl), rfl, rfl⟩

theorem holds_registerEvent (name : String) :
    Holds before (registerEvent name r).state (.event name) := by
  rw [state_of_silent (silent_registerEvent name r)]
  exact ⟨(SortedMap.mem_keys_insert _).mpr (.inl rfl), (SortedMap.mem_keys_insert ()).mpr (.inl rfl),
    mem_eventIdents name r.host⟩

theorem holds_registerEnumType (space id : String) (labels : List (String × Int64)) :
    Holds r (registerEnumType space id labels r).state (.enumType space id labels) := by
  rw [state_of_silent (silent_registerEnumType space id labels r)]
  split
  next n hn =>
    obtain ⟨i, hi, hname⟩ := LocalHost.getElem?_of_identIndex? hn
    have hmem := List.mem_of_getElem? hi
    exact ⟨i, hmem, hname, fun hnone => absurd hname (hnone i hmem)⟩
  next =>
    exact ⟨_, List.mem_append_right _ (List.mem_singleton.mpr rfl), rfl, fun _ => ⟨rfl, rfl⟩⟩

/-- A registration without a fault has brought what it was to bring. -/
theorem holds_register {registration : Registration} (hr : r.Ordered)
    (hok : (register registration r).result = .ok ()) :
    Holds r (register registration r).state registration := by
  cases registration with
  | parser parser => exact List.mem_append_right _ (List.mem_singleton.mpr rfl)
  | protocol decl => exact holds_registerProtocol hr hok
  | file decl => exact holds_registerFile hr hok
  | packet decl => exact holds_registerPacket hr hok
  | event name => exact holds_registerEvent name
  | enumType space id labels => exact holds_registerEnumType space id labels

/-- A module that gives up midway leaves what it brought until then. -/
theorem holds_run (script : Script) (hr : r.Ordered) :
    ∀ e ∈ performed script r, Holds e.2 (run script r).state e.1 := by
  induction script generalizing r with
  | nil => exact List.forall_mem_nil _
  | cons step steps ih =>
    cases step with
    | fail fault => exact List.forall_mem_nil _
    | register registration =>
      rw [run_register, Op.state_andThen]
      simp only [performed]
      cases hresult : (register registration r).result with
      | error fault => exact List.forall_mem_nil _
      | ok =>
        have hr' := hr.leads (keeps_register registration r).leads
        refine List.forall_mem_cons.mpr ⟨?_, ih hr'⟩
        exact (holds_register hr hresult).keep hr' (keeps_run steps _)

end Registry

namespace Plugin

open Registry (performed run)

/-- Somewhere in the moves from `p` to `q`, which leave the traces `t`, the plugin `u` is to load a
path, opens a module there, at a location that is not listed, and lets it register itself. -/
inductive Entrance (p : Plugin LocalHost) (t : List Trace) (q : Plugin LocalHost) (access : Access)
    (path : Path) (location : Location) (script : Script) (u : Plugin LocalHost) : Prop
  | intro {before after : List Trace} (hbefore : Moves p before u)
      (hpath : access.canonicalize path = .ok location) (hnew : location ∉ u.modules.keys)
      (hopen : access.openModule location = .ok script)
      (hload : load access path u = u.entered location script access.now)
      (hafter : Moves (u.enter location script access.now) after q)
      (htrace : t = before ++ ((u.entered location script access.now).trace ++ after))

variable {p q u : Plugin LocalHost} {t : List Trace} {access : Access} {path : Path}
  {location : Location} {script : Script}

/-- Only a load changes the list of modules. -/
theorem Move.modules (h : Move p t q) : q.modules = p.modules ∨
    ∃ access path, p.phase = .registering ∧
      t = (loadOnce access path p).trace ∧ q = (loadOnce access path p).state := by
  cases h with
  | load access path hphase => exact .inr ⟨access, path, hphase, rfl, rfl⟩
  | log | searchPath | register | placeholders | start | stopResolving | resolve | toggle | stop =>
    exact .inl rfl

/-- What a load puts on the list is a module that it opens. -/
theorem entrance_load {after : List Trace} (hphase : p.phase = .registering)
    (hkey : location ∈ (loadOnce access path p).state.modules.keys)
    (hafter : Moves (loadOnce access path p).state after q) : location ∈ p.modules.keys ∨
      ∃ script,
        Entrance p ((loadOnce access path p).trace ++ after) q access path location script p := by
  have hload := loading_loadOnce access path p
  rw [← load_of_registering hphase] at hload hkey hafter ⊢
  generalize hout : load access path p = o at hload hkey hafter ⊢
  cases hload with
  | unresolved | duplicate | unopened => exact .inl hkey
  | opened hpath hnew hopen =>
    rcases (SortedMap.mem_keys_insert _).mp hkey with rfl | hlisted
    · exact .inr ⟨_, .intro (.nil p) hpath hnew hopen hout hafter rfl⟩
    · exact .inl hlisted

/-- What is listed was listed at the start, or entered on the way. -/
theorem Moves.entrance (h : Moves p t q) (hkey : location ∈ q.modules.keys) :
    location ∈ p.modules.keys ∨
      ∃ access path script u, Entrance p t q access path location script u := by
  induction h with
  | nil => exact .inl hkey
  | cons hmove hrest ih =>
    rcases ih hkey with hlisted | ⟨access, path, script, u, hentrance⟩
    · rcases hmove.modules with hsame | ⟨access, path, hphase, rfl, rfl⟩
      · exact .inl (hsame ▸ hlisted)
      · exact (entrance_load hphase hlisted hrest).imp id fun ⟨script, hentrance⟩ =>
          ⟨access, path, script, _, hentrance⟩
    · obtain ⟨hbefore, hpath, hnew, hopen, hload, hafter, htrace⟩ := hentrance
      refine .inr ⟨access, path, script, u,
        .intro (.cons hmove hbefore) hpath hnew hopen hload hafter ?_⟩
      rw [htrace, List.append_assoc]

/-- A load that opens a module succeeds exactly if the module registers all it brings. -/
theorem Entrance.result (h : Entrance p t q access path location script u) :
    (load access path u).result = .ok true ↔
      (performed script u.registry).map (Step.register ·.1) = script := by
  obtain ⟨-, -, -, -, hload, -, -⟩ := h
  rw [hload, ← Registry.run_ok_iff]
  simp only [entered]
  cases (run script u.registry).result with
  | ok => exact iff_of_true rfl rfl
  | error => exact iff_of_false (fun h => by cases h) (fun h => by cases h)

/-- A load that succeeds leaves a trace of it. -/
theorem Entrance.registered (h : Entrance p t q access path location script u)
    (hok : (load access path u).result = .ok true) : .registered location ∈ t := by
  have hrun := (Registry.run_ok_iff script u.registry).mpr (h.result.mp hok)
  obtain ⟨-, -, -, -, -, -, htrace⟩ := h
  have hend : .registered location ∈ completion location (run script u.registry).result := by
    rw [hrun]
    exact List.mem_singleton.mpr rfl
  rw [htrace]
  refine List.mem_append_right _ (List.mem_append_left _ ?_)
  exact List.mem_append_right _ (List.mem_append_right _ hend)

/-- What the module had registered before its first fault is still there. -/
theorem Entrance.holds (h : Entrance p t q access path location script u)
    (hp : p.registry.Ordered) :
    ∀ e ∈ performed script u.registry, Registry.Holds e.2 q.registry e.1 := by
  obtain ⟨hbefore, -, -, -, -, hafter, -⟩ := h
  have hu := hp.leads hbefore.keeps.leads
  have hrun := hu.leads (Registry.keeps_run script u.registry).leads
  exact fun e he => (Registry.holds_run script hu e he).keep hrun hafter.keeps

theorem ordered_new {settings : Settings} {host : LocalHost} {failures : List RuntimeFailure}
    (hshipped : host.Shipped) (hnew : Plugin.new settings host failures = .ok p) :
    p.registry.Ordered := by
  rw [(registry_of_new hnew).1]
  refine ⟨Analyzers.placed_empty, fun hroom => ?_⟩
  have hroster : (Registry.new host failures).roster = Roster.unused host :=
    congrArg host.roster Analyzers.descriptor?_empty
  rw [hroster]
  exact hshipped.sound hroom

/-- Only a load of what is listed answers `false`. -/
theorem listed_of_load (hload : (load access path p).result = .ok false) :
    ∃ location ∈ p.modules.keys, access.canonicalize path = .ok location := by
  by_cases hphase : p.phase = .registering
  · have hout := loading_loadOnce access path p
    rw [load_of_registering hphase] at hload
    generalize loadOnce access path p = o at hload hout
    cases hout with
    | unresolved | unopened => contradiction
    | duplicate hpath hknown => exact ⟨_, hknown, hpath⟩
    | @opened location _ _ script =>
      simp only [entered] at hload
      cases hrun : (run script p.registry).result <;> rw [hrun] at hload <;>
        simp [Except.map] at hload
  · rw [load, Op.bind_apply, whileRegistering_of_ne hphase, Op.andThen_error] at hload
    contradiction

/-- A module that a load finds on the list was opened by an earlier load, which succeeded exactly if
the module registered all it brings; and all that it registered until then is still there. -/
theorem listed_module_registered {settings : Settings} {host : LocalHost}
    {failures : List RuntimeFailure} (hshipped : host.Shipped)
    (hnew : Plugin.new settings host failures = .ok p) (calls : List Call)
    (hload : (load access path (p.after calls)).result = .ok false) :
    let q := p.after calls
    ∃ earlier path' location script u, access.canonicalize path = .ok location ∧
      Entrance p (p.history (calls.map .call)) q earlier path' location script u ∧
      (performed script u.registry).map (Step.register ·.1) <+: script ∧
      ((load earlier path' u).result = .ok true ↔
        (performed script u.registry).map (Step.register ·.1) = script) ∧
      ∀ e ∈ performed script u.registry, Registry.Holds e.2 q.registry e.1 := by
  intro q
  obtain ⟨location, hkey, hpath⟩ := listed_of_load hload
  have hempty : p.modules = .empty := by rw [eq_of_new hnew]
  rcases (moves_calls calls p).entrance hkey with hlisted | ⟨earlier, path', script, u, hentrance⟩
  · rw [hempty] at hlisted
    contradiction
  · exact ⟨earlier, path', location, script, u, hpath, hentrance,
      Registry.performed_prefix script u.registry, hentrance.result,
      hentrance.holds (ordered_new hshipped hnew)⟩

/-- A module whose registration failed is on the list all the same. -/
theorem unfinished_module_listed : ¬ ∀ (settings : Settings) (host : LocalHost)
    (failures : List RuntimeFailure) (p : Plugin LocalHost) (calls : List Call) (access : Access)
    (path : Path), host.Shipped → Plugin.new settings host failures = .ok p →
      (load access path (p.after calls)).result = .ok false →
        ∃ earlier path' location script u, access.canonicalize path = .ok location ∧
          Entrance p (p.history (calls.map .call)) (p.after calls) earlier path' location script u ∧
          (load earlier path' u).result = .ok true := by
  intro hall
  let calls : List Call := [.load quitter (.ofString "m")]
  obtain ⟨_, _, location, _, _, hpath, hentrance, hok⟩ := hall bareSettings (.new 0 "" true) []
    (bare (.new 0 "" true)) calls quitter (.ofString "m") (.new 0 "" true) rfl
    (by decide +kernel)
  obtain rfl : ⟨[[0x6D]]⟩ = location := Except.ok.inj hpath
  exact absurd (hentrance.registered hok) (by decide +kernel)

/-- The event that the module registered before it gave up is still there. -/
theorem begun_event_kept :
    let p := bare (.new 0 "" true)
    let q := p.after [.load quitter (.ofString "m")]
    (load quitter (.ofString "./m") q).result = .ok false ∧
      q.registry.events.keys = ["Begun"] ∧
      ∃ earlier path' location script u, quitter.canonicalize (.ofString "./m") = .ok location ∧
        Entrance p (p.history [.call (.load quitter (.ofString "m"))]) q earlier path' location
          script u ∧
        ∀ e ∈ performed script u.registry, Registry.Holds e.2 q.registry e.1 := by
  intro p q
  have hload : (load quitter (.ofString "./m") q).result = .ok false := by decide +kernel
  have hnew : Plugin.new bareSettings (LocalHost.new 0 "" true) [] = .ok p := rfl
  obtain ⟨earlier, path', location, script, u, hpath, hentrance, -, -, hholds⟩ :=
    listed_module_registered (.new 0 "" true) hnew [.load quitter (.ofString "m")] hload
  exact ⟨hload, by decide +kernel, earlier, path', location, script, u, hpath, hentrance, hholds⟩

end Plugin

end TrafficAnalyzers
