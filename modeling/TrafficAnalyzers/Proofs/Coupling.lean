import TrafficAnalyzers.Proofs.Roster.Invariant
import TrafficAnalyzers.Proofs.Session
/-!
How the records of registered analyzers and the components of the host belong together. Main
statement: they do so in every plugin that calls lead to.
-/
namespace TrafficAnalyzers

/-- The record `d` in the slot of a tag and the host's components fit each other. -/
structure LocalHost.Fits (h : LocalHost) (tag : Tag) (d : Descriptor) : Prop where
  id : d.id = tag.id
  /-- One component carries the tag: one of the plugin's, with the recorded name and entry. -/
  carried : ∃ c, h.components.filter (·.tag = some tag) = [c] ∧ c.builtin = false ∧
    c.component.name = d.name ∧ d.entry = some c.component.entry ∧
    c.component.entry.kind = tag.kind
  location : d.location = "<Spicy-" ++ d.name ++ ">"
  listed : h.scriptLocations.count d.location = 1
  /-- What it replaces is older, and has the name that it was looked up by. -/
  replaced : ∀ id, d.replaces = some id → 0 < id ∧ id < tag.id ∧
    ∃ c ∈ h.components, c.tag = some ⟨tag.kind, id⟩ ∧ c.component.name = d.replacedName

/-- Set slots and the components that are not built in belong to each other. -/
structure Registry.Coupled (r : Registry LocalHost) : Prop where
  /-- Every record stands in the slot of its own number. -/
  placed : r.analyzers.Placed
  fits : ∀ tag d, r.analyzers.descriptor? tag = some d → r.host.Fits tag d
  recorded : ∀ c ∈ r.host.components, c.builtin = false →
    ∃ tag, c.tag = some tag ∧ r.analyzers.descriptor? tag ≠ none
  unrecorded : ∀ c ∈ r.host.components, c.builtin = true → ∀ tag, c.tag = some tag →
    r.analyzers.descriptor? tag = none

namespace Roster

variable {h : LocalHost} {descriptor? : Tag → Option Descriptor}

theorem exists_of_mem_marks {m : Mark} (hm : m ∈ (h.roster descriptor?).marks) :
    ∃ c ∈ h.components, c.mark = m := List.mem_map.mp hm

/-- Only one component carries a tag. -/
theorem Sound.filter_components (hs : (h.roster descriptor?).Sound) {c : ComponentRecord}
    (hc : c ∈ h.components) {tag : Tag} (htag : c.tag = some tag) :
    h.components.filter (·.tag = some tag) = [c] := by
  have hmarks := hs.numbered.filter_eq (List.mem_map_of_mem hc) htag
  rw [marks, List.filter_map] at hmarks
  obtain ⟨c', hc', -⟩ := List.map_eq_singleton_iff.mp hmarks
  have hmem : c ∈ h.components.filter (·.tag = some tag) :=
    List.mem_filter.mpr ⟨hc, decide_eq_true htag⟩
  have heq : h.components.filter (·.tag = some tag) = [c'] := hc'
  rw [heq, List.mem_singleton] at hmem
  rw [heq, hmem]

theorem Sound.fits (hs : (h.roster descriptor?).Sound) {tag : Tag} {d : Descriptor}
    (hd : descriptor? tag = some d) : h.Fits tag d := by
  obtain ⟨hid, ⟨entry, hentry, hkind, hmem⟩, ⟨hloc, hin⟩, hrep⟩ := hs.described tag d hd
  obtain ⟨⟨⟨name, e⟩, ctag, enabled, builtin⟩, hc, hmark⟩ := exists_of_mem_marks hmem
  obtain ⟨⟨rfl, rfl⟩, rfl, rfl⟩ :
      (name = d.name ∧ e = entry) ∧ ctag = some tag ∧ builtin = false := by
    simpa [ComponentRecord.mark] using hmark
  refine ⟨hid, ⟨_, hs.filter_components hc rfl, rfl, rfl, hentry, hkind⟩, hloc,
    hs.locations.count.trans (if_pos hin), ?_⟩
  intro id hr
  obtain ⟨hlt, m, hm, htag, hname⟩ := hrep id hr
  obtain ⟨i, hi, hpos, -⟩ := hs.numbered.tagged m hm
  obtain ⟨-, rfl⟩ : _ ∧ i = id := by simpa [hi] using htag
  obtain ⟨c, hc, rfl⟩ := exists_of_mem_marks hm
  exact ⟨hpos, hlt, c, hc, htag, hname⟩

/-- Of a tag with a record no component is built in. -/
theorem Sound.unrecorded (hs : (h.roster descriptor?).Sound) {c : ComponentRecord}
    (hc : c ∈ h.components) (hb : c.builtin = true) {tag : Tag} (htag : c.tag = some tag) :
    descriptor? tag = none := by
  cases hd : descriptor? tag with
  | none => rfl
  | some d =>
    obtain ⟨-, ⟨entry, -, -, hmem⟩, -⟩ := hs.described tag d hd
    have hmark := hs.numbered.eq_of_tag (List.mem_map_of_mem hc) hmem htag rfl
    have hfalse : c.builtin = false := congrArg Mark.builtin hmark
    rw [hb] at hfalse
    contradiction

theorem Sound.recorded (hs : (h.roster descriptor?).Sound) {c : ComponentRecord}
    (hc : c ∈ h.components) (hb : c.builtin = false) :
    ∃ tag, c.tag = some tag ∧ descriptor? tag ≠ none := by
  have hm : c.mark ∈ (h.roster descriptor?).marks := List.mem_map_of_mem hc
  obtain ⟨id, htag, -⟩ := hs.numbered.tagged _ hm
  exact ⟨_, htag, hs.enrolled _ hm hb _ htag⟩

end Roster

theorem LocalHost.Shipped.sound {h : LocalHost} (hs : h.Shipped) (hroom : h.Roomy) :
    (Roster.unused h).Sound := by
  induction hs with
  | new version pluginPath fileToggle =>
    refine ⟨⟨nofun, .nil, fun kind => ?_⟩, .nil, nofun, nofun, .nil⟩
    cases kind <;> rfl
  | @addBuiltin h name entry _ ih =>
    have hcount (kind : Kind) : (h.addBuiltin name entry).2.allocated kind =
        h.allocated kind + if kind = entry.kind then 1 else 0 := by
      rw [← Roster.tagCount_marks _ fun _ => none, Roster.marks_addBuiltin, Roster.tagCount_append,
        Roster.tagCount_marks]
    have hbefore : h.Roomy := fun kind => by
      have hafter := hroom kind
      rw [hcount] at hafter
      omega
    have hnow := hroom entry.kind
    rw [hcount, if_pos rfl, ← Roster.tagCount_marks h fun _ => none] at hnow
    exact (ih hbefore).addBuiltin name entry hnow
  | setConstant name value _ ih => exact ih hroom

namespace Plugin

/-- A plugin that calls lead to comes from one over a host without records of its own. -/
theorem Reached.leads {p : Plugin LocalHost} (hp : p.Reached) :
    ∃ host, host.Shipped ∧ (Roster.unused host).Leads p.registry.roster := by
  induction hp with
  | @new _ host _ p hs h =>
    refine ⟨host, hs, ?_⟩
    rw [(registry_of_new h).1, Registry.roster]
    change Roster.Leads _ (host.roster Analyzers.empty.descriptor?)
    rw [Analyzers.descriptor?_empty]
  | call call hp ih =>
    obtain ⟨host, hs, hleads⟩ := ih
    exact ⟨host, hs, hleads.trans (call.leads _ hp.placed).2⟩

theorem Reached.sound {p : Plugin LocalHost} (hp : p.Reached) (hroom : p.registry.host.Roomy) :
    p.registry.roster.Sound := by
  obtain ⟨host, hs, hleads⟩ := hp.leads
  -- Tags are never given back, so room for them at the end is room at the start.
  have hend : p.registry.roster.Roomy := Roster.roomy_roster.mpr hroom
  have hstart : host.Roomy := Roster.roomy_roster.mp (hend.of_leads hleads)
  exact (hs.sound hstart).leads hleads hend

/-- However calls follow each other and fail, the records of registered analyzers and the host's
components belong together. -/
theorem reached_registry_coupled {p : Plugin LocalHost} (hp : p.Reached)
    (hroom : p.registry.host.Roomy) : p.registry.Coupled where
  placed := hp.placed
  fits _ _ hd := (hp.sound hroom).fits hd
  recorded _ hc hb := (hp.sound hroom).recorded hc hb
  unrecorded _ hc hb _ htag := (hp.sound hroom).unrecorded hc hb htag

/-- The host ships with the analyzer that is replaced, so its slot stays unset. -/
theorem replacing_builtin_coupled :
    let p := (bare ((LocalHost.new 0 "" true).addBuiltin "HTTP" .tcp).2).after
      [.register (.protocol ⟨"Own", .tcp, [], "", "", "HTTP"⟩), .toggle ⟨.protocol, 2⟩ false]
    p.registry.analyzers.replacedId? ⟨.protocol, 2⟩ = some 1 ∧ p.registry.Coupled := by
  intro p
  refine ⟨by decide +kernel, reached_registry_coupled ?_ ?_⟩
  · exact (reached_bare (.addBuiltin "HTTP" .tcp (.new 0 "" true))).after _
  · intro kind
    cases kind <;> decide +kernel

end Plugin

end TrafficAnalyzers
