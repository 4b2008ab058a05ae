import TrafficAnalyzers.Proofs.Coupling
import TrafficAnalyzers.Proofs.Roster.Writes
/-!
An analyzer and the one it replaces, under registrations and toggles in any order. Main statement:
each of the two is in the state last written to it, and exactly one is on if the last write to
either of them was made in registering or toggling the replacing analyzer itself.
-/
namespace TrafficAnalyzers

/-- The registration of a protocol or file analyzer, or a toggle. -/
inductive Act where
  | protocol (decl : ProtocolDecl)
  | file (decl : FileDecl)
  | toggle (tag : Tag) (enable : Bool)
  deriving DecidableEq, Repr

namespace Act

def call : Act → Call
  | protocol decl => .register (.protocol decl)
  | file decl => .register (.file decl)
  | toggle tag enable => .toggle tag enable

/-- The writes to components that an act comes to; no packet analyzer can be toggled. -/
def writes (r : Registry LocalHost) : Act → List Write
  | protocol decl =>
    match Registry.entryFor? decl.transport with
    | none => []
    | some _ =>
      r.roster.enrolmentWrites .protocol (r.roster.replaced? .protocol decl.replaces)
  | file decl => r.roster.enrolmentWrites .file (r.roster.replacedFile? decl.replaces)
  | toggle tag enable => if tag.kind = .packet then [] else r.roster.toggleWrites tag enable

end Act

namespace Plugin

/-- The plugin after acts, in their order. -/
def act (acts : List Act) (p : Plugin LocalHost) : Plugin LocalHost := p.after (acts.map Act.call)

/-- All writes of acts, in their order. -/
def log : List Act → Plugin LocalHost → List Write
  | [], _ => []
  | a :: acts, p => a.writes p.registry ++ log acts (a.call.leave p)

end Plugin

namespace Plugin

variable {p : Plugin LocalHost}

theorem phase_act (hphase : p.phase = .registering) (a : Act) :
    (a.call.leave p).phase = .registering := by
  cases a with
  | protocol decl | file decl =>
    rw [Act.call, leave_register hphase]
    exact hphase
  | toggle tag enable => exact hphase

/-- An act does nothing to components but its writes. -/
theorem tracked_act (hphase : p.phase = .registering) {before : List Write}
    (h : p.registry.roster.Tracked before) (hable : p.registry.roster.fileToggle = true) (a : Act)
    (hroom : (a.call.leave p).registry.roster.Roomy) :
    (a.call.leave p).registry.roster.Tracked (before ++ a.writes p.registry) := by
  cases a with
  | protocol decl =>
    rw [Act.call, leave_register hphase] at hroom ⊢
    change (Registry.registerProtocol decl p.registry).state.roster.Roomy at hroom
    change (Registry.registerProtocol decl p.registry).state.roster.Tracked _
    rw [Registry.roster_registerProtocol] at hroom ⊢
    unfold Act.writes
    cases he : Registry.entryFor? decl.transport with
    | none => simpa [he] using h
    | some entry =>
      have hkind := Registry.kind_of_entryFor? he
      simp only [he, ← hkind] at hroom ⊢
      exact h.enrol (fun id => Roster.id?_of_replaced?) (hroom entry.kind)
  | file decl =>
    rw [Act.call, leave_register hphase] at hroom ⊢
    change (Registry.registerFile decl p.registry).state.roster.Roomy at hroom
    change (Registry.registerFile decl p.registry).state.roster.Tracked _
    rw [Registry.roster_registerFile] at hroom ⊢
    exact h.enrol (fun id => Roster.id?_of_replacedFile?) (hroom .file)
  | toggle tag enable =>
    change (Registry.toggle tag enable p.registry).state.roster.Tracked _
    have hable' : p.registry.host.fileToggle = true := hable
    obtain ⟨kind, id⟩ := tag
    rw [Registry.roster_toggle h.sound.carried, Act.writes]
    cases kind with
    | protocol => exact h.toggle ⟨.protocol, id⟩ enable
    | file => simpa [LocalHost.canToggle, hable'] using h.toggle ⟨.file, id⟩ enable
    | packet => simpa [LocalHost.canToggle] using h

/-- Every write of acts is in their log. -/
theorem tracked_log {acts : List Act} (hplaced : p.registry.analyzers.Placed)
    (hphase : p.phase = .registering) {before : List Write}
    (h : p.registry.roster.Tracked before) (hable : p.registry.roster.fileToggle = true)
    (hroom : (p.act acts).registry.roster.Roomy) :
    (p.act acts).registry.roster.Tracked (before ++ p.log acts) := by
  -- The writes before a call grow along the run, so they vary with the plugin.
  induction acts generalizing p before with
  | nil => simpa [act, after, log] using h
  | cons a acts ih =>
    obtain ⟨hplaced', hleads⟩ := a.call.leads p hplaced
    have hrest := (leads_after (acts.map Act.call) (a.call.leave p) hplaced').2
    have hnext := tracked_act hphase h hable a (hroom.of_leads hrest)
    have hable' := (Roster.fileToggle_leads hleads).trans hable
    rw [log, ← List.append_assoc]
    exact ih hplaced' (phase_act hphase a) hnext hable' hroom

/-- The analyzers that a host ships with are on. -/
theorem enabled_of_shipped {h : LocalHost} (hs : h.Shipped) :
    ∀ c ∈ h.components, c.enabled = true := by
  induction hs with
  | new => nofun
  | addBuiltin name entry _ ih =>
    intro c hc
    cases entry <;> rcases List.mem_append.mp hc with hc | hc <;>
      first
      | exact ih c hc
      | rw [List.mem_singleton.mp hc]
  | setConstant name value _ ih => exact ih

theorem tracked_new {settings : Settings} {host : LocalHost} {failures : List RuntimeFailure}
    (hs : host.Shipped) (hp : Plugin.new settings host failures = .ok p)
    (hroom : p.registry.host.Roomy) : p.registry.roster.Tracked [] := by
  have hregistry := (registry_of_new hp).1
  refine ⟨(Reached.new hs hp).sound hroom, ?_, ?_⟩
  · intro c hc tag _
    rw [hregistry] at hc
    exact enabled_of_shipped hs c hc
  · intro tag d id hd _
    have hnone : p.registry.roster.descriptor? tag = none := by
      rw [hregistry]
      exact congrFun Analyzers.descriptor?_empty tag
    rw [hnone] at hd
    contradiction

theorem replacedId?_eq (a : Analyzers) (tag : Tag) :
    a.replacedId? tag = (a.descriptor? tag).bind (·.replaces) := by
  obtain ⟨kind, id⟩ := tag
  cases kind with
  | protocol =>
    cases h : a.protocol.get? id <;>
      simp [Analyzers.replacedId?, Analyzers.descriptor?, h, ProtocolAnalyzer.descriptor]
  | file =>
    cases h : a.file.get? id <;>
      simp [Analyzers.replacedId?, Analyzers.descriptor?, h, FileAnalyzer.descriptor]
  | packet =>
    cases h : a.packet.get? id <;>
      simp [Analyzers.replacedId?, Analyzers.descriptor?, h, PacketAnalyzer.descriptor]

/-- An analyzer's component and that of the one it replaces are each in the state last written to
it, and of the two exactly one is on if the last write to either was the replacing analyzer's. -/
theorem replacement_alternates {settings : Settings} {host : LocalHost}
    {failures : List RuntimeFailure} {p : Plugin LocalHost} (hs : host.Shipped)
    (hable : host.fileToggle = true) (hp : Plugin.new settings host failures = .ok p)
    (acts : List Act) (hroom : (p.act acts).registry.host.Roomy) {tag : Tag} {id : UInt32}
    (hid : (p.act acts).registry.analyzers.replacedId? tag = some id) :
    let old : Tag := ⟨tag.kind, id⟩
    ∃ c c', (p.act acts).registry.host.components.filter (·.tag = some tag) = [c] ∧
      (p.act acts).registry.host.components.filter (·.tag = some old) = [c'] ∧
      lastState (p.log acts) tag = some c.enabled ∧ lastState (p.log acts) old = some c'.enabled ∧
      ∀ w, lastWrite (p.log acts) [tag, old] = some w → w.author = tag →
        c'.enabled = !c.enabled := by
  intro old
  obtain ⟨hregistry, hphase⟩ := registry_of_new hp
  have hplaced := (Reached.new hs hp).placed
  have hend : (p.act acts).registry.roster.Roomy := Roster.roomy_roster.mpr hroom
  have hleads := (leads_after (acts.map Act.call) p hplaced).2
  have hstart : p.registry.host.Roomy := Roster.roomy_roster.mp (hend.of_leads hleads)
  have htracked : (p.act acts).registry.roster.Tracked (p.log acts) :=
    tracked_log hplaced hphase (tracked_new hs hp hstart) (by rw [hregistry]; exact hable) hend
  rw [replacedId?_eq] at hid
  obtain ⟨d, hd, hrep⟩ := Option.bind_eq_some_iff.mp hid
  obtain ⟨-, ⟨c, hc, -⟩, -, -, hold⟩ := htracked.sound.fits hd
  obtain ⟨-, -, c', hc', htag', -⟩ := hold id hrep
  obtain ⟨hcmem, htag⟩ := List.mem_filter.mp (hc ▸ List.mem_singleton_self c)
  have hopposed := htracked.opposed tag d id hd hrep
  have hown := htracked.lastState_eq hcmem (of_decide_eq_true htag) hopposed.written
  have hother := htracked.lastState_eq hc' htag' hopposed.writtenOld
  refine ⟨c, c', hc, htracked.sound.filter_components hc' htag', hown, hother, ?_⟩
  intro w hw hauthor
  have hopposite := hopposed.opposite w hw hauthor
  rw [hown, hother] at hopposite
  exact Option.some.inj hopposite

/-- An analyzer replaces one that the host ships with, and is itself replaced. -/
def chained : List Act :=
  [.protocol ⟨"New", .tcp, [], "", "", "Old"⟩, .protocol ⟨"Newer", .tcp, [], "", "", "New"⟩]

def shipping : LocalHost := ((LocalHost.new 0 "" true).addBuiltin "Old" .tcp).2

theorem shipped_shipping : shipping.Shipped := .addBuiltin "Old" .tcp (.new 0 "" true)

/-- Both the analyzer in the middle of a chain and the one it replaces are off. -/
theorem chained_both_off : ¬ ∀ (settings : Settings) (host : LocalHost)
    (failures : List RuntimeFailure) (p : Plugin LocalHost), host.Shipped →
    host.fileToggle = true → Plugin.new settings host failures = .ok p →
      ∀ (acts : List Act) (tag : Tag) (id : UInt32),
        (p.act acts).registry.analyzers.replacedId? tag = some id →
          ∀ c ∈ (p.act acts).registry.host.components, c.tag = some tag →
            ∀ c' ∈ (p.act acts).registry.host.components, c'.tag = some ⟨tag.kind, id⟩ →
              c'.enabled = !c.enabled := by
  intro hone
  have hpair := hone bareSettings shipping [] (bare shipping) shipped_shipping rfl rfl chained
    ⟨.protocol, 2⟩ 1 (by decide +kernel)
    ⟨⟨"New", .tcp⟩, some ⟨.protocol, 2⟩, false, false⟩ (by decide +kernel) rfl
    ⟨⟨"Old", .tcp⟩, some ⟨.protocol, 1⟩, false, true⟩ (by decide +kernel) rfl
  contradiction

/-- Turned off, an analyzer leaves its place to the one that the host ships with. -/
theorem toggled_off_restores :
    let acts := [.protocol ⟨"New", .tcp, [], "", "", "Old"⟩, .toggle ⟨.protocol, 2⟩ false]
    ∃ c c', ((bare shipping).act acts).registry.host.components.filter
        (·.tag = some ⟨.protocol, 2⟩) = [c] ∧
      ((bare shipping).act acts).registry.host.components.filter
        (·.tag = some ⟨.protocol, 1⟩) = [c'] ∧ c.enabled = false ∧ c'.enabled = true := by
  intro acts
  have hroom : ((bare shipping).act acts).registry.host.Roomy := fun kind => by
    cases kind <;> decide +kernel
  have hid : ((bare shipping).act acts).registry.analyzers.replacedId? ⟨.protocol, 2⟩ = some 1 := by
    decide +kernel
  have hlast : lastState ((bare shipping).log acts) ⟨.protocol, 2⟩ = some false := by decide +kernel
  have hwrite : lastWrite ((bare shipping).log acts) [⟨.protocol, 2⟩, ⟨.protocol, 1⟩] =
      some ⟨⟨.protocol, 2⟩, ⟨.protocol, 1⟩, true⟩ := by decide +kernel
  have hnew : Plugin.new bareSettings shipping [] = .ok (bare shipping) := rfl
  obtain ⟨c, c', hc, hc', hown, -, hopposite⟩ :=
    replacement_alternates shipped_shipping rfl hnew acts hroom hid
  have hoff : c.enabled = false := Option.some.inj (hown.symm.trans hlast)
  exact ⟨c, c', hc, hc', hoff, (hopposite _ hwrite rfl).trans (hoff ▸ rfl)⟩

end Plugin

end TrafficAnalyzers
