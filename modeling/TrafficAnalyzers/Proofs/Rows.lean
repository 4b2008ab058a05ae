import TrafficAnalyzers.Report
import TrafficAnalyzers.Proofs.Resolution.Attribution
/-!
The analyzers in a report. Main statement: there is one row for each record, by kind and number, and
it shows whether the oldest analyzer of its kind and name is enabled, which is the row's own exactly
if no other is older.
-/
namespace TrafficAnalyzers

/-- The place of a kind in reports. -/
def Kind.place : Kind → Nat
  | .protocol => 0
  | .file => 1
  | .packet => 2

/-- The order of reports: by kind, and within a kind by number. -/
def Tag.Before (t t' : Tag) : Prop :=
  t.kind.place < t'.kind.place ∨ t.kind = t'.kind ∧ t.id < t'.id

namespace SlotTable

variable {δ : Type} [Slotted δ] {t : SlotTable δ}

/-- The tags of the set slots of a kind's table. -/
def tags (t : SlotTable δ) (kind : Kind) : List Tag := t.toList.map fun d => ⟨kind, Slotted.id d⟩

theorem Placed.tags_pairwise (ht : t.Placed) (kind : Kind) : (t.tags kind).Pairwise Tag.Before :=
  List.pairwise_map.mpr (ht.toList_sorted.imp fun hlt => .inr ⟨rfl, hlt⟩)

theorem kind_of_mem_tags {kind : Kind} {tag : Tag} (h : tag ∈ t.tags kind) : tag.kind = kind := by
  obtain ⟨_, -, rfl⟩ := List.mem_map.mp h
  rfl

theorem Placed.mem_tags (ht : t.Placed) (kind : Kind) (id : UInt32) :
    (⟨kind, id⟩ : Tag) ∈ t.tags kind ↔ t.get? id ≠ none := by
  rw [tags, List.mem_map, Option.ne_none_iff_exists']
  constructor
  · rintro ⟨d, hd, htag⟩
    obtain rfl : Slotted.id d = id := congrArg Tag.id htag
    exact ⟨d, ht.mem_toList.mp hd⟩
  · rintro ⟨d, hd⟩
    obtain ⟨rfl, -⟩ := ht.id_eq hd
    exact ⟨d, ht.mem_toList.mpr hd, rfl⟩

end SlotTable

namespace Analyzers

variable {a : Analyzers}

/-- The tags of all set slots, in the order of reports. -/
def tags (a : Analyzers) : List Tag :=
  a.protocol.tags .protocol ++ a.file.tags .file ++ a.packet.tags .packet

theorem Placed.tags_pairwise (ha : a.Placed) : a.tags.Pairwise Tag.Before := by
  have hbefore {δ δ' : Type} [Slotted δ] [Slotted δ'] {t : SlotTable δ} {t' : SlotTable δ'}
      {kind kind' : Kind} (hlt : kind.place < kind'.place) :
      ∀ tag ∈ t.tags kind, ∀ tag' ∈ t'.tags kind', tag.Before tag' := by
    intro tag htag tag' htag'
    rw [← SlotTable.kind_of_mem_tags htag, ← SlotTable.kind_of_mem_tags htag'] at hlt
    exact .inl hlt
  refine List.pairwise_append.mpr ⟨List.pairwise_append.mpr ⟨ha.protocol.tags_pairwise _,
    ha.file.tags_pairwise _, hbefore (by decide)⟩, ha.packet.tags_pairwise _, ?_⟩
  intro tag htag
  rcases List.mem_append.mp htag with htag | htag
  · exact hbefore (by decide) tag htag
  · exact hbefore (by decide) tag htag

theorem Placed.mem_tags (ha : a.Placed) (tag : Tag) : tag ∈ a.tags ↔ a.descriptor? tag ≠ none := by
  obtain ⟨kind, id⟩ := tag
  have hother {δ : Type} [Slotted δ] (t : SlotTable δ) {kind' : Kind} (hne : kind ≠ kind') :
      (⟨kind, id⟩ : Tag) ∉ t.tags kind' := fun h => hne (SlotTable.kind_of_mem_tags h)
  simp only [tags, List.mem_append]
  cases kind with
  | protocol =>
    rw [ha.protocol.mem_tags]
    simp [hother, descriptor?]
  | file =>
    rw [ha.file.mem_tags]
    simp [hother, descriptor?]
  | packet =>
    rw [ha.packet.mem_tags]
    simp [hother, descriptor?]

end Analyzers

def AnalyzerRow.tag (row : AnalyzerRow) : Tag := ⟨row.kind, row.id⟩

namespace RegistryReport

variable {host : LocalHost} {a : Analyzers}

theorem tags_analyzerRows (host : LocalHost) (a : Analyzers) :
    (analyzerRows host a).map (·.tag) = a.tags := by
  simp only [analyzerRows, List.map_append, List.map_map]
  rfl

/-- A row has the name of its record, and the host's answer for that name. -/
theorem record_of_row (ha : a.Placed) {row : AnalyzerRow} (hrow : row ∈ analyzerRows host a) :
    ∃ d, a.descriptor? row.tag = some d ∧ row.name = d.name ∧
      row.enabled = host.isEnabled? row.kind d.name := by
  simp only [analyzerRows, List.mem_append, List.mem_map] at hrow
  rcases hrow with (⟨p, hp, rfl⟩ | ⟨p, hp, rfl⟩) | ⟨p, hp, rfl⟩
  · exact ⟨p.descriptor, congrArg (Option.map _) (ha.protocol.mem_toList.mp hp), rfl, rfl⟩
  · exact ⟨p.descriptor, congrArg (Option.map _) (ha.file.mem_toList.mp hp), rfl, rfl⟩
  · exact ⟨p.descriptor, congrArg (Option.map _) (ha.packet.mem_toList.mp hp), rfl, rfl⟩

end RegistryReport

/-- By the name of a recorded analyzer the host finds the oldest one of the kind and name. -/
theorem Roster.Sound.isEnabled?_eq {h : LocalHost} {descriptor? : Tag → Option Descriptor}
    (hs : (h.roster descriptor?).Sound) {tag : Tag} {d : Descriptor}
    (hd : descriptor? tag = some d) :
    ∃ id c, h.Oldest tag d.name id ∧ h.components.filter (·.tag = some ⟨tag.kind, id⟩) = [c] ∧
      h.isEnabled? tag.kind d.name = some c.enabled := by
  obtain ⟨own, hown, -, hname, -, hkind⟩ := (hs.fits hd).carried
  have hmem : own ∈ h.components.filter (·.tag = some tag) := hown ▸ List.mem_singleton_self own
  have hsome : (h.component? tag.kind d.name).isSome := by
    refine List.find?_isSome.mpr ⟨own, List.mem_of_mem_filter hmem, ?_⟩
    simp [hkind, hname]
  obtain ⟨c, hc⟩ := Option.isSome_iff_exists.mp hsome
  have hcomponent : c ∈ h.components := List.mem_of_find?_eq_some hc
  have hfound := List.find?_some hc
  simp only [Bool.and_eq_true, decide_eq_true_eq] at hfound
  obtain ⟨id, htag, -⟩ := hs.numbered.tagged c.mark (List.mem_map_of_mem hcomponent)
  have htag' : c.tag = some ⟨tag.kind, id⟩ := hfound.1 ▸ htag
  have hid : h.id? tag.kind d.name = some id := by simp [LocalHost.id?, hc, htag']
  refine ⟨id, c, hs.oldest hd hid, hs.filter_components hcomponent htag', ?_⟩
  rw [LocalHost.isEnabled?, hc]
  rfl

/-- What a row shows of the components of a host. -/
structure AnalyzerRow.Shows (row : AnalyzerRow) (h : LocalHost) : Prop where
  oldest : ∃ id c, h.Oldest row.tag row.name id ∧
    h.components.filter (·.tag = some ⟨row.kind, id⟩) = [c] ∧ row.enabled = some c.enabled
  /-- It shows its own component if no other of the kind and name is older. -/
  own : ∃ c, h.components.filter (·.tag = some row.tag) = [c] ∧ c.component.name = row.name ∧
    ((∀ c' ∈ h.components, c'.component.name = row.name →
      ∀ i, c'.tag = some ⟨row.kind, i⟩ → row.id ≤ i) → row.enabled = some c.enabled)

namespace Plugin

/-- A report has one row for each set slot, in the order of kinds and numbers. Each row shows whether
the oldest analyzer of its kind and name is enabled. -/
theorem rows_show_oldest {p : Plugin LocalHost} (hp : p.Reached) :
    let rows := (RegistryReport.ofPlugin p).analyzers
    (rows.map (·.tag)).Pairwise Tag.Before ∧
      (∀ tag, tag ∈ rows.map (·.tag) ↔ p.registry.analyzers.descriptor? tag ≠ none) ∧
      (p.registry.host.Roomy → ∀ row ∈ rows, row.Shows p.registry.host) := by
  intro rows
  have htags : rows.map (·.tag) = p.registry.analyzers.tags :=
    RegistryReport.tags_analyzerRows _ _
  rw [htags]
  refine ⟨hp.placed.tags_pairwise, hp.placed.mem_tags, fun hroom row hrow => ?_⟩
  have hs := hp.sound hroom
  obtain ⟨d, hd, hname, henabled⟩ := RegistryReport.record_of_row hp.placed hrow
  obtain ⟨id, c, holdest, hc, hanswer⟩ := hs.isEnabled?_eq hd
  have hshown : row.enabled = some c.enabled := henabled.trans hanswer
  obtain ⟨own, hown, -, hownname, -⟩ := (hs.fits hd).carried
  rw [← hname] at holdest hownname
  refine ⟨⟨id, c, holdest, hc, hshown⟩, own, hown, hownname, fun hleast => ?_⟩
  obtain rfl : id = row.tag.id := holdest.eq_iff.mpr hleast
  obtain rfl : c = own := List.singleton_inj.mp (hc.symm.trans hown)
  exact hshown

/-- The analyzer that has the name of one of the host's is off. -/
def dimmed : Plugin LocalHost := namesake.after [.toggle ⟨.protocol, 2⟩ false]

theorem reached_dimmed : dimmed.Reached := reached_namesake.after _

/-- The row of the analyzer that is off shows the host's own, which is on. -/
theorem dimmed_shows_builtin :
    let row : AnalyzerRow := ⟨.protocol, 2, "HTTP", ["-", "-"], none, ["80/tcp"], some true⟩
    let h := dimmed.registry.host
    row ∈ (RegistryReport.ofPlugin dimmed).analyzers ∧ row.Shows h ∧
      (h.components.filter (·.tag = some row.tag)).map (·.enabled) = [false] := by
  intro row h
  have hroom : dimmed.registry.host.Roomy := fun kind => by cases kind <;> decide +kernel
  have hrow : row ∈ (RegistryReport.ofPlugin dimmed).analyzers := by decide +kernel
  exact ⟨hrow, (rows_show_oldest reached_dimmed).2.2 hroom row hrow, by decide +kernel⟩

/-- A row does not always show the state of its own component. -/
theorem row_not_own : ¬ ∀ p : Plugin LocalHost, p.Reached →
    ∀ row ∈ (RegistryReport.ofPlugin p).analyzers, ∀ c ∈ p.registry.host.components,
      c.tag = some row.tag → row.enabled = some c.enabled := by
  intro hown
  have hrow := hown dimmed reached_dimmed
  revert hrow
  decide +kernel

end Plugin

end TrafficAnalyzers
