import TrafficAnalyzers.Proofs.Interchange.Resolution
import TrafficAnalyzers.Proofs.Replacement
/-!
Two modules loaded in either order. Main statement: if they have no name in common, and neither
replaces an analyzer of the other one, it makes no difference which of them is loaded first, but for
tags, handles and the order of names.
-/
namespace TrafficAnalyzers

namespace Registry

/-- A registry with room for what a module registers. -/
structure Ready (r : Registry LocalHost) (m : List Registration) : Prop where
  ordered : r.Ordered
  tied : r.Tied
  room : ∀ kind, r.host.allocated kind + m.countP (·.declares kind) < UInt32.size - 1

variable {r : Registry LocalHost} {m m' m₁ m₂ : List Registration}

theorem Ready.sound (h : r.Ready m) : r.roster.Sound :=
  h.ordered.sound fun kind => Nat.lt_of_le_of_lt (Nat.le_add_right _ _) (h.room kind)

theorem Ready.comm (h : r.Ready (m ++ m')) : r.Ready (m' ++ m) where
  ordered := h.ordered
  tied := h.tied
  room kind := by
    have hroom := h.room kind
    rw [List.countP_append] at hroom ⊢
    omega

/-- What a module takes of the room leaves the rest. -/
theorem Ready.run (h : r.Ready (m ++ m')) : (run (m.map .register) r).state.Ready m' where
  ordered := h.ordered.leads (keeps_run _ r).leads
  tied := (ties_run _ r).2 h.ordered.placed h.tied
  room kind := by
    have hroom := h.room kind
    have htaken := allocated_run_le m r kind
    rw [List.countP_append] at hroom
    omega

/-- A registry with room for a module registers all of it. -/
theorem Ready.portrait_run (h : r.Ready (m ++ m')) :
    (Registry.run (m.map .register) r).result = .ok () ∧
      (Registry.run (m.map .register) r).state.portrait =
        m.foldl (fun P x => P.act x) r.portrait := by
  refine Registry.portrait_run m h.ordered h.tied fun kind => ?_
  have hroom := h.run.room kind
  omega

/-- Modules without a name in common make one portrait in either order. -/
theorem Ready.interchange (h : r.Ready (m₁ ++ m₂))
    (hindep : ∀ x ∈ m₁, ∀ y ∈ m₂, x.Independent y) :
    (Registry.run (m₂.map .register) (Registry.run (m₁.map .register) r).state).state.portrait =
      (Registry.run (m₁.map .register)
        (Registry.run (m₂.map .register) r).state).state.portrait := by
  have h₁₂ : (Registry.run (m₁.map .register) r).state.Ready (m₂ ++ []) := by
    rw [List.append_nil]
    exact h.run
  have h₂₁ : (Registry.run (m₂.map .register) r).state.Ready (m₁ ++ []) := by
    rw [List.append_nil]
    exact h.comm.run
  rw [h₁₂.portrait_run.2, h₂₁.portrait_run.2, h.portrait_run.2, h.comm.portrait_run.2]
  exact Portrait.foldl_act_comm hindep r.portrait

end Registry

namespace Plugin

open Registry (Ready)

/-- The same plugin but for tags and handles, the order of what has different names, and the times
of loads. -/
structure Alike (p q : Plugin LocalHost) : Prop where
  settings : p.settings = q.settings
  phase : p.phase = q.phase
  modules : ∀ location, location ∈ p.modules.keys ↔ location ∈ q.modules.keys
  registry : p.registry.portrait = q.registry.portrait

/-- A way to a module at a location that registers `m` and does not fail of itself. -/
structure Delivery (location : Location) (m : List Registration) where
  access : Access
  path : Path
  canonical : access.canonicalize path = .ok location
  opened : access.openModule location = .ok (m.map .register)

variable {p q : Plugin LocalHost} {location l₁ l₂ : Location} {m m' m₁ m₂ : List Registration}

/-- Where there is room, the load of a module that is not listed succeeds. -/
theorem load_delivery (hphase : p.phase = .registering) (hnew : location ∉ p.modules.keys)
    (hready : p.registry.Ready (m ++ m')) (d : Delivery location m) :
    (load d.access d.path p).result = .ok true ∧
      (load d.access d.path p).state = p.enter location (m.map .register) d.access.now := by
  have hrun := hready.portrait_run.1
  rw [load_of_registering hphase, loadOnce_opened d.canonical hnew d.opened, entered, hrun]
  exact ⟨rfl, rfl⟩

/-- So do the loads of two modules, one after the other. -/
theorem load_deliveries (hphase : p.phase = .registering) (hne : l₁ ≠ l₂)
    (hnew₁ : l₁ ∉ p.modules.keys) (hnew₂ : l₂ ∉ p.modules.keys)
    (hready : p.registry.Ready (m₁ ++ m₂)) (a : Delivery l₁ m₁) (b : Delivery l₂ m₂) :
    let first := load a.access a.path p
    let second := load b.access b.path first.state
    first.result = .ok true ∧ second.result = .ok true ∧ second.state.registry.Ready [] ∧
      second.state =
        (p.enter l₁ (m₁.map .register) a.access.now).enter l₂ (m₂.map .register) b.access.now := by
  intro first second
  obtain ⟨hok, hfirst⟩ := load_delivery hphase hnew₁ hready a
  have hphase' : first.state.phase = .registering := by
    rw [hfirst]
    exact hphase
  have hnew : l₂ ∉ first.state.modules.keys := by
    rw [hfirst, enter, SortedMap.mem_keys_insert, not_or]
    exact ⟨hne.symm, hnew₂⟩
  have hrest : first.state.registry.Ready (m₂ ++ []) := by
    rw [List.append_nil, hfirst]
    exact hready.run
  obtain ⟨hok', hsecond⟩ := load_delivery hphase' hnew hrest b
  refine ⟨hok, hok', ?_, ?_⟩
  · rw [hsecond]
    exact hrest.run
  · rw [hsecond, hfirst]

theorem alike_enter (hready : p.registry.Ready (m₁ ++ m₂))
    (hindep : ∀ x ∈ m₁, ∀ y ∈ m₂, x.Independent y) (t₁ t₂ u₂ u₁ : Timestamp) :
    ((p.enter l₁ (m₁.map .register) t₁).enter l₂ (m₂.map .register) t₂).Alike
      ((p.enter l₂ (m₂.map .register) u₂).enter l₁ (m₁.map .register) u₁) where
  settings := rfl
  phase := rfl
  modules location := by
    simp only [enter, SortedMap.mem_keys_insert]
    exact or_left_comm
  registry := hready.interchange hindep

/-- Plugins that are alike go through the second phase together. -/
theorem afterScripts_alike (hp : p.registry.Ready []) (hq : q.registry.Ready [])
    (hphase : p.phase = .registering) (h : p.Alike q) :
    ((afterScripts p).result = .ok () ↔ (afterScripts q).result = .ok ()) ∧
      ((afterScripts p).result = .ok () →
        (afterScripts p).state.Alike (afterScripts q).state) := by
  have hphase' : q.phase = .registering := h.phase ▸ hphase
  have hfailures : p.registry.runtime.failures = q.registry.runtime.failures :=
    congrArg Portrait.failures h.registry
  cases hstart : p.registry.runtime.failures with
  | cons failure failures =>
    rw [result_afterScripts_of_failure hphase hstart,
      result_afterScripts_of_failure hphase' (hfailures ▸ hstart)]
    exact ⟨Iff.rfl, nofun⟩
  | nil =>
    have hiff : (afterScripts p).result = .ok () ↔ (afterScripts q).result = .ok () := by
      rw [result_afterScripts_ok_iff hphase hstart,
        result_afterScripts_ok_iff hphase' (hfailures ▸ hstart)]
      exact ⟨Registry.resolvable_of_portrait hp.sound hq.sound h.registry,
        Registry.resolvable_of_portrait hq.sound hp.sound h.registry.symm⟩
    refine ⟨hiff, fun hok => ?_⟩
    have hr := (result_afterScripts_ok_iff hphase hstart).mp hok
    rw [state_afterScripts hp.ordered.placed hphase hok,
      state_afterScripts hq.ordered.placed hphase' (hiff.mp hok)]
    exact ⟨h.settings, rfl, h.modules, Registry.portrait_resolved_congr hp.sound hq.sound hp.tied
      hq.tied h.registry hr⟩

/-- Over a plugin that calls lead to, whose host is otherwise only changed in ways that spare the
analyzers: modules that have no name in common, and of which none replaces an analyzer of the other
one, can be loaded in either order, as long as there is room for their analyzers. Then the plugin
can be resolved in both cases or in neither, and it is the same before and after that, but for tags
and handles. -/
theorem load_order_irrelevant (hp : p.Lived) (hphase : p.phase = .registering) (hne : l₁ ≠ l₂)
    (hnew₁ : l₁ ∉ p.modules.keys) (hnew₂ : l₂ ∉ p.modules.keys)
    (hindep : ∀ x ∈ m₁, ∀ y ∈ m₂, x.Independent y)
    (hroom : ∀ kind, p.registry.host.allocated kind + (m₁ ++ m₂).countP (·.declares kind) <
      UInt32.size - 1)
    (a₁ b₁ : Delivery l₁ m₁) (a₂ b₂ : Delivery l₂ m₂) :
    let first := load a₁.access a₁.path p
    let second := load a₂.access a₂.path first.state
    let first' := load b₂.access b₂.path p
    let second' := load b₁.access b₁.path first'.state
    (first.result = .ok true ∧ second.result = .ok true ∧
      first'.result = .ok true ∧ second'.result = .ok true) ∧
      second.state.Alike second'.state ∧
      ((afterScripts second.state).result = .ok () ↔
        (afterScripts second'.state).result = .ok ()) ∧
      ((afterScripts second.state).result = .ok () →
        (afterScripts second.state).state.Alike (afterScripts second'.state).state) := by
  intro first second first' second'
  have hready : p.registry.Ready (m₁ ++ m₂) := ⟨hp.ordered, hp.tied, hroom⟩
  obtain ⟨hok, hok₂, hrest, hstate⟩ := load_deliveries hphase hne hnew₁ hnew₂ hready a₁ a₂
  obtain ⟨hok', hok₁, hrest', hstate'⟩ :=
    load_deliveries hphase hne.symm hnew₂ hnew₁ hready.comm b₂ b₁
  have halike : second.state.Alike second'.state := by
    rw [hstate, hstate']
    exact alike_enter hready hindep _ _ _ _
  have hphase' : second.state.phase = .registering := by
    rw [hstate]
    exact hphase
  exact ⟨⟨hok, hok₂, hok', hok₁⟩, halike, afterScripts_alike hrest hrest' hphase' halike⟩

/-- A module with a protocol analyzer in place of the host's, and the analyzer's parser. -/
def leftModule : List Registration :=
  [.parser ⟨"L", [⟨⟨1, .tcp⟩, .responder⟩], []⟩, .protocol ⟨"Left", .tcp, [], "", "L", "Old"⟩,
    .event "Left::seen"]

def rightModule : List Registration :=
  [.protocol ⟨"Right", .udp, [⟨2, .udp⟩], "", "", ""⟩, .file ⟨"File", ["a/b"], "", ""⟩,
    .enumType "Right" "Side" [("A", 1)]]

/-- The modules under the paths `l` and `r`. -/
def sides : Access where
  canonicalize path := .ok ⟨[path.bytes]⟩
  openModule location :=
    if location = ⟨[[0x6C]]⟩ then .ok (leftModule.map .register)
    else .ok (rightModule.map .register)
  now := .epoch

def leftDelivery : Delivery ⟨[[0x6C]]⟩ leftModule := ⟨sides, .ofString "l", rfl, rfl⟩

def rightDelivery : Delivery ⟨[[0x72]]⟩ rightModule := ⟨sides, .ofString "r", rfl, rfl⟩

/-- The module that is loaded first gets the smaller number, and nothing else comes of it. -/
theorem sides_either_way :
    let p := bare shipping
    let left := Call.load sides (.ofString "l")
    let right := Call.load sides (.ofString "r")
    let q := p.after [left, right, .afterScripts]
    let q' := p.after [right, left, .afterScripts]
    q.registry.host.portBindings = [⟨2, .tcp, 1⟩, ⟨3, .udp, 2⟩] ∧
      q'.registry.host.portBindings = [⟨2, .udp, 2⟩, ⟨3, .tcp, 1⟩] ∧ q.Alike q' := by
  intro p left right q q'
  have hp : p.Lived := (reached_bare shipped_shipping).lived
  have hroom (kind : Kind) : p.registry.host.allocated kind +
      (leftModule ++ rightModule).countP (·.declares kind) < UInt32.size - 1 := by
    cases kind <;> decide +kernel
  have hall := load_order_irrelevant hp rfl (by decide +kernel) nofun nofun (by decide +kernel)
    hroom leftDelivery leftDelivery rightDelivery rightDelivery
  have hok : (afterScripts (p.after [left, right])).result = .ok () := by decide +kernel
  exact ⟨by decide +kernel, by decide +kernel, hall.2.2.2 hok⟩

end Plugin

end TrafficAnalyzers
