import TrafficAnalyzers.Proofs.Roster
/-!
What holds of a roster at all times: tags are given out by ascending number, each to one component,
and every record describes the component of its tag. Main statement: steps keep this as long as no
kind runs out of numbers.
-/
namespace TrafficAnalyzers

/-- What never changes in a component that the host has. -/
structure Mark where
  component : Component
  tag : Option Tag
  builtin : Bool
  deriving DecidableEq, Repr

def ComponentRecord.mark (c : ComponentRecord) : Mark := ⟨c.component, c.tag, c.builtin⟩

/-- How many tags of a kind are given out. -/
def LocalHost.allocated (h : LocalHost) (kind : Kind) : Nat :=
  h.components.countP fun c => c.tag.map (·.kind) = some kind

/-- Fewer tags of each kind are given out than there are numbers above zero. -/
def LocalHost.Roomy (h : LocalHost) : Prop := ∀ kind, h.allocated kind < UInt32.size - 1

namespace Roster

def marks (o : Roster) : List Mark := o.components.map (·.mark)

/-- How many marks have a tag of the kind. -/
def tagCount (ms : List Mark) (kind : Kind) : Nat :=
  ms.countP fun m => m.tag.map (·.kind) = some kind

/-- Fewer tags of each kind are given out than there are numbers above zero. -/
def Roomy (o : Roster) : Prop := ∀ kind, tagCount o.marks kind < UInt32.size - 1

/-- Tags are given out in turn: each to a component of its kind, above zero and the tags before. -/
structure Numbered (ms : List Mark) (next : Kind → UInt32) : Prop where
  tagged : ∀ m ∈ ms, ∃ id, m.tag = some ⟨m.component.entry.kind, id⟩ ∧ 0 < id ∧
    id < next m.component.entry.kind
  ascending : ms.Pairwise fun m m' => ∀ kind id id', m.tag = some ⟨kind, id⟩ →
    m'.tag = some ⟨kind, id'⟩ → id < id'
  next_eq : ∀ kind, (next kind).toNat = tagCount ms kind + 1

/-- The record `d` of a tag fits the component that carries the tag, and the one it replaces. -/
structure Described (o : Roster) (tag : Tag) (d : Descriptor) : Prop where
  id : d.id = tag.id
  carried : ∃ entry : Entry, d.entry = some entry ∧ entry.kind = tag.kind ∧
    ⟨⟨d.name, entry⟩, some tag, false⟩ ∈ o.marks
  location : d.location = scriptLocation d.name ∧ d.location ∈ o.locations
  replaced : ∀ id, d.replaces = some id → id < tag.id ∧
    ∃ m ∈ o.marks, m.tag = some ⟨tag.kind, id⟩ ∧ m.component.name = d.replacedName

structure Sound (o : Roster) : Prop where
  numbered : Numbered o.marks o.next
  builtinFirst : o.marks.Pairwise fun m m' => m'.builtin → m.builtin
  described : ∀ tag d, o.descriptor? tag = some d → o.Described tag d
  enrolled : ∀ m ∈ o.marks, m.builtin = false → ∀ tag, m.tag = some tag →
    o.descriptor? tag ≠ none
  locations : o.locations.Nodup

theorem tagCount_append (ms : List Mark) (component : Component) (tag : Tag) (builtin : Bool)
    (kind : Kind) : tagCount (ms ++ [⟨component, some tag, builtin⟩]) kind =
      tagCount ms kind + if kind = tag.kind then 1 else 0 := by
  simp [tagCount, List.countP_append, List.countP_cons, eq_comm]

theorem tagCount_marks (h : LocalHost) (descriptor? : Tag → Option Descriptor) (kind : Kind) :
    tagCount (h.roster descriptor?).marks kind = h.allocated kind := by
  simp only [tagCount, marks, LocalHost.allocated, LocalHost.roster, List.countP_map]
  rfl

theorem roomy_roster {h : LocalHost} {descriptor? : Tag → Option Descriptor} :
    (h.roster descriptor?).Roomy ↔ h.Roomy := by
  simp only [Roomy, LocalHost.Roomy, tagCount_marks]

theorem toNat_add_one {n : UInt32} (h : n.toNat < UInt32.size - 1) :
    (n + 1).toNat = n.toNat + 1 := by
  have hsize : UInt32.size = 4294967296 := rfl
  rw [UInt32.toNat_add]
  exact Nat.mod_eq_of_lt (by simp only [UInt32.reduceToNat]; omega)

/-- The next number goes to the next component of its kind. -/
theorem Numbered.append {ms : List Mark} {next : Kind → UInt32} (h : Numbered ms next)
    {component : Component} {kind : Kind} (hkind : component.entry.kind = kind) (builtin : Bool)
    (hroom : tagCount ms kind + 1 < UInt32.size - 1) :
    Numbered (ms ++ [⟨component, some ⟨kind, next kind⟩, builtin⟩])
      (Function.update next kind (next kind + 1)) := by
  have hnext := h.next_eq kind
  have hsucc : (next kind + 1).toNat = (next kind).toNat + 1 := toNat_add_one (by omega)
  have hlt : next kind < next kind + 1 := UInt32.lt_iff_toNat_lt.mpr (by omega)
  refine ⟨?_, ?_, ?_⟩
  · intro m hm
    rcases List.mem_append.mp hm with hm | hm
    · obtain ⟨id, htag, hpos, hid⟩ := h.tagged m hm
      refine ⟨id, htag, hpos, ?_⟩
      by_cases hk : m.component.entry.kind = kind
      · rw [hk] at hid ⊢
        rw [Function.update_self]
        exact UInt32.lt_trans hid hlt
      · rwa [Function.update_of_ne hk]
    · obtain rfl := List.mem_singleton.mp hm
      refine ⟨next kind, by rw [hkind], UInt32.lt_iff_toNat_lt.mpr (by simp; omega), ?_⟩
      rw [hkind, Function.update_self]
      exact hlt
  · rw [List.pairwise_append]
    refine ⟨h.ascending, List.pairwise_singleton _ _, ?_⟩
    intro m hm m' hm' k id id' htag htag'
    obtain rfl := List.mem_singleton.mp hm'
    obtain ⟨rfl, rfl⟩ : kind = k ∧ next kind = id' := by simpa using htag'
    obtain ⟨i, hi, -, hlt⟩ := h.tagged m hm
    obtain ⟨hk, rfl⟩ : m.component.entry.kind = kind ∧ i = id := by simpa [hi] using htag
    rwa [hk] at hlt
  · intro k
    rw [tagCount_append]
    by_cases hk : k = kind
    · subst hk
      rw [Function.update_self, if_pos rfl]
      omega
    · rw [Function.update_of_ne hk, if_neg hk]
      exact h.next_eq k

theorem Numbered.lt_next {ms : List Mark} {next : Kind → UInt32} (h : Numbered ms next) {m : Mark}
    (hm : m ∈ ms) {kind : Kind} {id : UInt32} (htag : m.tag = some ⟨kind, id⟩) :
    id < next kind := by
  obtain ⟨i, hi, -, hlt⟩ := h.tagged m hm
  obtain ⟨hk, rfl⟩ : m.component.entry.kind = kind ∧ i = id := by simpa [hi] using htag
  exact hk ▸ hlt

/-- Only one of the marks has a tag. -/
theorem Numbered.filter_eq {ms : List Mark} {next : Kind → UInt32} (h : Numbered ms next)
    {m : Mark} (hm : m ∈ ms) {tag : Tag} (htag : m.tag = some tag) :
    ms.filter (·.tag = some tag) = [m] := by
  have hmem : m ∈ ms.filter (·.tag = some tag) := by simp [hm, htag]
  have hpair := h.ascending.filter (·.tag = some tag)
  generalize hl : ms.filter (·.tag = some tag) = l at hmem hpair
  have hall : ∀ m ∈ l, m.tag = some tag := by
    intro m' hm'
    rw [← hl] at hm'
    simpa using (List.mem_filter.mp hm').2
  match l, hmem, hpair, hall with
  | [a], hmem, _, _ => rw [List.mem_singleton.mp hmem]
  | a :: b :: l, _, hpair, hall =>
    have hlt := List.rel_of_pairwise_cons hpair List.mem_cons_self tag.kind tag.id tag.id
      (hall a List.mem_cons_self) (hall b (List.mem_cons_of_mem a List.mem_cons_self))
    exact absurd hlt (UInt32.lt_irrefl _)

theorem Numbered.eq_of_tag {ms : List Mark} {next : Kind → UInt32} (h : Numbered ms next)
    {m m' : Mark} (hm : m ∈ ms) (hm' : m' ∈ ms) {tag : Tag} (htag : m.tag = some tag)
    (htag' : m'.tag = some tag) : m = m' :=
  List.singleton_inj.mp ((h.filter_eq hm htag).symm.trans (h.filter_eq hm' htag'))

@[simp] theorem marks_switch (tag : Tag) (enabled : Bool) (o : Roster) :
    (o.switch tag enabled).marks = o.marks := map_enableIn _ (fun _ _ => rfl) tag enabled _

@[simp] theorem marks_enrol (entry : Entry) (name : String) (replaces : Option UInt32)
    (replacedName : String) (o : Roster) : (o.enrol entry name replaces replacedName).marks =
      o.marks ++ [⟨⟨name, entry⟩, some ⟨entry.kind, o.next entry.kind⟩, false⟩] := by
  simp [marks, enrol, ComponentRecord.mark]

/-- What the host finds by a name has that name. -/
theorem mem_marks_of_id? {o : Roster} {kind : Kind} {name : String} {id : UInt32}
    (h : o.id? kind name = some id) :
    ∃ m ∈ o.marks, m.tag = some ⟨kind, id⟩ ∧ m.component.name = name := by
  simp only [id?, Option.bind_eq_some_iff, Option.ite_none_right_eq_some, Option.some.injEq] at h
  obtain ⟨tag, ⟨c, hc, htag⟩, rfl, rfl⟩ := h
  refine ⟨c.mark, List.mem_map_of_mem (List.mem_of_find?_eq_some hc), htag, ?_⟩
  have hfound := List.find?_some hc
  simp only [Bool.and_eq_true, decide_eq_true_eq] at hfound
  exact hfound.2

theorem Described.mono {o o' : Roster} {tag : Tag} {d : Descriptor} (h : o.Described tag d)
    (hm : ∀ m ∈ o.marks, m ∈ o'.marks) (hl : ∀ l ∈ o.locations, l ∈ o'.locations) :
    o'.Described tag d := by
  obtain ⟨hid, ⟨entry, hentry, hkind, hmem⟩, ⟨hloc, hin⟩, hrep⟩ := h
  refine ⟨hid, ⟨entry, hentry, hkind, hm _ hmem⟩, ⟨hloc, hl _ hin⟩, ?_⟩
  intro id hr
  obtain ⟨hlt, m, hmem, htag, hname⟩ := hrep id hr
  exact ⟨hlt, m, hm m hmem, htag, hname⟩

theorem Sound.switch {o : Roster} (h : o.Sound) (tag : Tag) (enabled : Bool) :
    (o.switch tag enabled).Sound := by
  have hm := marks_switch tag enabled o
  refine ⟨hm ▸ h.numbered, hm ▸ h.builtinFirst, ?_, hm ▸ h.enrolled, h.locations⟩
  exact fun t d hd => (h.described t d hd).mono (fun _ hmem => hm ▸ hmem) fun _ hl => hl

theorem Sound.supersede {o : Roster} (h : o.Sound) (kind : Kind) (replaces : Option UInt32) :
    (o.supersede kind replaces).Sound := by
  cases replaces with
  | none => exact h
  | some id => exact h.switch ⟨kind, id⟩ false

section Enrol

variable {o : Roster} {entry : Entry} {name replacedName : String} {replaces : Option UInt32}

theorem mem_locations_enrol {l : String} :
    l ∈ (o.enrol entry name replaces replacedName).locations ↔
      l ∈ o.locations ∨ l = scriptLocation name := by
  simp only [enrol]
  split
  next hc =>
    have hin : scriptLocation name ∈ o.locations := List.contains_iff_mem.mp hc
    exact ⟨.inl, fun hl => hl.elim id fun he => he ▸ hin⟩
  next => simp

theorem nodup_locations_enrol (h : o.locations.Nodup) :
    (o.enrol entry name replaces replacedName).locations.Nodup := by
  simp only [enrol]
  split
  next => exact h
  next hc =>
    have hnot : scriptLocation name ∉ o.locations := fun hin => hc (List.contains_iff_mem.mpr hin)
    exact List.nodup_append.mpr ⟨h, by simp, by
      intro l hl l' hl' he
      exact hnot (List.mem_singleton.mp hl' ▸ he ▸ hl)⟩

theorem descriptor?_enrol (h0 : o.next entry.kind ≠ 0) :
    (o.enrol entry name replaces replacedName).descriptor? =
      Function.update o.descriptor? ⟨entry.kind, o.next entry.kind⟩ (some
        ⟨o.next entry.kind, name, some entry, scriptLocation name, replaces, replacedName⟩) :=
  if_neg h0

/-- The analyzer just enrolled is described by its record. -/
theorem described_enrol (h : Numbered o.marks o.next)
    (hrep : ∀ id, replaces = some id → o.id? entry.kind replacedName = some id) :
    (o.enrol entry name replaces replacedName).Described ⟨entry.kind, o.next entry.kind⟩
      ⟨o.next entry.kind, name, some entry, scriptLocation name, replaces, replacedName⟩ := by
  refine ⟨rfl, ⟨entry, rfl, rfl, by simp⟩, ⟨rfl, mem_locations_enrol.mpr (.inr rfl)⟩, ?_⟩
  intro id hid
  obtain ⟨m, hm, htag, hname⟩ := mem_marks_of_id? (hrep id hid)
  exact ⟨h.lt_next hm htag, m, by simp [hm], htag, hname⟩

theorem Sound.next_ne_zero (h : o.Sound) (kind : Kind) : o.next kind ≠ 0 := by
  intro h0
  have hnext := h.numbered.next_eq kind
  rw [h0] at hnext
  simp at hnext

theorem Sound.enrol (h : o.Sound)
    (hrep : ∀ id, replaces = some id → o.id? entry.kind replacedName = some id)
    (hroom : tagCount o.marks entry.kind + 1 < UInt32.size - 1) :
    (o.enrol entry name replaces replacedName).Sound := by
  have h0 := h.next_ne_zero entry.kind
  refine ⟨?_, ?_, ?_, ?_, nodup_locations_enrol h.locations⟩
  · rw [marks_enrol]
    exact h.numbered.append rfl false hroom
  · rw [marks_enrol, List.pairwise_append]
    refine ⟨h.builtinFirst, List.pairwise_singleton _ _, ?_⟩
    intro m _ m' hm' hb
    rw [List.mem_singleton.mp hm'] at hb
    contradiction
  · intro tag d hd
    rw [descriptor?_enrol h0, Function.update_apply] at hd
    split at hd
    next htag =>
      rw [htag, ← Option.some.inj hd]
      exact described_enrol h.numbered hrep
    next =>
      refine (h.described tag d hd).mono (fun m hm => ?_) fun l hl =>
        mem_locations_enrol.mpr (.inl hl)
      rw [marks_enrol]
      exact List.mem_append_left _ hm
  · intro m hm hb tag htag
    rw [descriptor?_enrol h0, Function.update_apply]
    split
    next => exact Option.some_ne_none _
    next hne =>
      rw [marks_enrol, List.mem_append, List.mem_singleton] at hm
      rcases hm with hm | rfl
      · exact h.enrolled m hm hb tag htag
      · exact absurd (Option.some.inj htag).symm hne

end Enrol

/-- The roster of a host to which no plugin came. -/
abbrev unused (h : LocalHost) : Roster := h.roster fun _ => none

theorem marks_addBuiltin (name : String) (entry : Entry) (h : LocalHost) :
    (unused (h.addBuiltin name entry).2).marks =
      (unused h).marks ++ [⟨⟨name, entry⟩, some ⟨entry.kind, h.next entry.kind⟩, true⟩] := by
  simp [marks, LocalHost.roster, LocalHost.addBuiltin, LocalHost.components_allocate,
    LocalHost.allocate_tag, ComponentRecord.mark]

theorem next_addBuiltin (name : String) (entry : Entry) (h : LocalHost) :
    (h.addBuiltin name entry).2.next =
      Function.update h.next entry.kind (h.next entry.kind + 1) :=
  LocalHost.next_allocate entry.kind h

theorem Sound.addBuiltin {h : LocalHost} (hs : (unused h).Sound) (name : String) (entry : Entry)
    (hroom : tagCount (unused h).marks entry.kind + 1 < UInt32.size - 1) :
    (unused (h.addBuiltin name entry).2).Sound := by
  refine ⟨?_, ?_, fun _ _ hd => by contradiction, ?_, ?_⟩
  · rw [marks_addBuiltin]
    change Numbered _ (h.addBuiltin name entry).2.next
    rw [next_addBuiltin]
    exact hs.numbered.append rfl true hroom
  · rw [marks_addBuiltin, List.pairwise_append]
    refine ⟨hs.builtinFirst, List.pairwise_singleton _ _, ?_⟩
    intro m hm m' _ _
    obtain ⟨id, htag, -⟩ := hs.numbered.tagged m hm
    cases hb : m.builtin with
    | true => rfl
    | false => exact absurd rfl (hs.enrolled m hm hb _ htag)
  · rw [marks_addBuiltin]
    intro m hm hb tag htag
    rcases List.mem_append.mp hm with hm | hm
    · exact hs.enrolled m hm hb tag htag
    · rw [List.mem_singleton.mp hm] at hb
      contradiction
  · have hl : (unused (h.addBuiltin name entry).2).locations = (unused h).locations := by
      cases entry <;> rfl
    exact hl ▸ hs.locations

theorem tagCount_step {o o' : Roster} (h : Step o o') (kind : Kind) :
    tagCount o.marks kind ≤ tagCount o'.marks kind := by
  cases h with
  | switch tag enabled =>
    exact Nat.le_of_eq (congrArg (tagCount · kind) (marks_switch tag enabled o)).symm
  | enrol entry name replaces replacedName =>
    rw [marks_enrol, tagCount_append]
    exact Nat.le_add_right _ _

theorem tagCount_leads {o o' : Roster} (h : o.Leads o') (kind : Kind) :
    tagCount o.marks kind ≤ tagCount o'.marks kind := by
  induction h with
  | refl => exact Nat.le_refl _
  | tail _ hstep ih => exact Nat.le_trans ih (tagCount_step hstep kind)

/-- Marks stay, in their order. -/
theorem marks_leads {o o' : Roster} (h : o.Leads o') : o.marks <+: o'.marks := by
  induction h with
  | refl => exact List.prefix_refl _
  | tail _ hstep ih =>
    refine ih.trans ?_
    cases hstep with
    | switch tag enabled =>
      exact (marks_switch tag enabled _).symm ▸ List.prefix_refl _
    | enrol entry name replaces replacedName =>
      exact (marks_enrol entry name replaces replacedName _).symm ▸ List.prefix_append _ _

/-- No tag is ever taken back. -/
theorem Roomy.of_leads {o o' : Roster} (hroom : o'.Roomy) (h : o.Leads o') : o.Roomy :=
  fun kind => Nat.lt_of_le_of_lt (tagCount_leads h kind) (hroom kind)

/-- A step keeps a roster sound that stays roomy. -/
theorem Sound.step {o o' : Roster} (hs : o.Sound) (h : Step o o')
    (hroom : o'.Roomy) : o'.Sound := by
  cases h with
  | switch tag enabled => exact hs.switch tag enabled
  | enrol entry name replaces replacedName _ hrep =>
    have hkind := hroom entry.kind
    rw [marks_enrol, tagCount_append, if_pos rfl] at hkind
    exact hs.enrol hrep hkind

/-- So do any number of steps. -/
theorem Sound.leads {o o' : Roster} (hs : o.Sound) (h : o.Leads o')
    (hroom : o'.Roomy) : o'.Sound := by
  induction h with
  | refl => exact hs
  | tail _ hstep ih =>
    exact (ih (hroom.of_leads (.single hstep))).step hstep hroom

end Roster

end TrafficAnalyzers
