import TrafficAnalyzers.Proofs.Coupling
import TrafficAnalyzers.Proofs.Resolution.Finish
/-!
To which analyzers a resolution binds ports and MIME types. Main statement: to the oldest analyzer
of the kind and name, which is the one that declared them exactly if no other is older.
-/
namespace TrafficAnalyzers

/-- The number `id` is that of the oldest analyzer with a name, where the tag is that of an analyzer
of the same kind and name. -/
structure LocalHost.Oldest (h : LocalHost) (tag : Tag) (name : String) (id : UInt32) : Prop where
  le : id ≤ tag.id
  eq_iff : id = tag.id ↔ ∀ c ∈ h.components, c.component.name = name →
    ∀ i, c.tag = some ⟨tag.kind, i⟩ → tag.id ≤ i
  builtin_iff : (∃ c ∈ h.components, c.tag = some ⟨tag.kind, id⟩ ∧ c.builtin = true) ↔
    ∃ c ∈ h.components, c.component.entry.kind = tag.kind ∧ c.component.name = name ∧
      c.builtin = true

namespace Roster

/-- The host finds the first component of a kind and name: no other has a smaller number, and none
is built in if it is not. -/
theorem Sound.first_of_id? {o : Roster} (hs : o.Sound) {kind : Kind} {name : String} {id : UInt32}
    (h : o.id? kind name = some id) :
    ∃ m ∈ o.marks, m.tag = some ⟨kind, id⟩ ∧ m.component.entry.kind = kind ∧
      m.component.name = name ∧ ∀ m' ∈ o.marks, m'.component.entry.kind = kind →
        m'.component.name = name →
          (∀ i, m'.tag = some ⟨kind, i⟩ → id ≤ i) ∧ (m'.builtin = true → m.builtin = true) := by
  simp only [id?, Option.bind_eq_some_iff, Option.ite_none_right_eq_some, Option.some.injEq] at h
  obtain ⟨tag, ⟨c, hc, htag⟩, rfl, rfl⟩ := h
  obtain ⟨hfound, before, after, hsplit, hbefore⟩ := List.find?_eq_some_iff_append.mp hc
  simp only [Bool.and_eq_true, decide_eq_true_eq] at hfound
  have hmarks : o.marks = before.map (·.mark) ++ c.mark :: after.map (·.mark) := by
    simp [marks, hsplit]
  refine ⟨c.mark, by simp [hmarks], htag, hfound.1, hfound.2, ?_⟩
  intro m' hm' hkind hname
  -- What comes before the one found has another kind or name, and what comes after is younger.
  rw [hmarks, List.mem_append, List.mem_cons] at hm'
  rcases hm' with hm' | rfl | hm'
  · obtain ⟨c', hc', rfl⟩ := List.mem_map.mp hm'
    have hnot := hbefore c' hc'
    simp only [ComponentRecord.mark] at hkind hname
    simp [hkind, hname] at hnot
  · refine ⟨fun i hi => ?_, fun hb => hb⟩
    have htags : some tag = some ⟨tag.kind, i⟩ := htag.symm.trans hi
    exact UInt32.le_of_eq (congrArg Tag.id (Option.some.inj htags))
  · have hasc := hs.numbered.ascending
    have hfirst := hs.builtinFirst
    rw [hmarks, List.pairwise_append] at hasc hfirst
    have hlt := List.rel_of_pairwise_cons hasc.2.1 hm'
    exact ⟨fun i hi => UInt32.le_of_lt (hlt tag.kind tag.id i htag hi),
      List.rel_of_pairwise_cons hfirst.2.1 hm'⟩

/-- What the host finds by the name of a recorded analyzer. -/
theorem Sound.oldest {h : LocalHost} {descriptor? : Tag → Option Descriptor}
    (hs : (h.roster descriptor?).Sound) {tag : Tag} {d : Descriptor}
    (hd : descriptor? tag = some d) {id : UInt32} (hid : h.id? tag.kind d.name = some id) :
    h.Oldest tag d.name id := by
  obtain ⟨m, hm, htag, hkind, hname, hfirst⟩ := hs.first_of_id? (o := h.roster descriptor?) hid
  obtain ⟨c, hc, rfl⟩ := exists_of_mem_marks hm
  obtain ⟨-, ⟨entry, -, hentry, hown⟩, -⟩ := hs.described tag d hd
  have hle : id ≤ tag.id := (hfirst _ hown hentry rfl).1 tag.id rfl
  refine ⟨hle, ⟨?_, ?_⟩, ⟨?_, ?_⟩⟩
  · rintro rfl c' hc' hname' i hi
    obtain ⟨j, hj, -⟩ := hs.numbered.tagged _ (List.mem_map_of_mem hc')
    have htags : some _ = some _ := hj.symm.trans hi
    have hkind' := congrArg Tag.kind (Option.some.inj htags)
    exact (hfirst _ (List.mem_map_of_mem hc') hkind' hname').1 i hi
  · intro hleast
    exact UInt32.le_antisymm hle (hleast c hc hname id htag)
  · rintro ⟨c', hc', htag', hb⟩
    have hmark := hs.numbered.eq_of_tag (List.mem_map_of_mem hc') hm htag' htag
    exact ⟨c, hc, hkind, hname, (congrArg Mark.builtin hmark).symm.trans hb⟩
  · rintro ⟨c', hc', hkind', hname', hb⟩
    exact ⟨c, hc, htag, (hfirst _ (List.mem_map_of_mem hc') hkind' hname').2 hb⟩

end Roster

namespace Plugin

/-- A resolution without a fault binds the ports and MIME types of every record to the oldest
analyzer of the record's kind and name. That is the recorded one exactly if no other is older, and
one the host ships with exactly if there is one of that name. -/
theorem resolution_binds_oldest {p : Plugin LocalHost} (hp : p.Reached)
    (hroom : p.registry.host.Roomy) (hphase : p.phase = .registering)
    (hok : (afterScripts p).result = .ok ()) :
    let h := p.registry.host
    let parsers := p.registry.runtime.parsers
    let s := (afterScripts p).state.registry.host
    s.portBindings = h.portBindings ++
        p.registry.analyzers.protocol.toList.flatMap (fun a => a.decl.bindings h parsers) ∧
      s.queuedEvents = h.queuedEvents ++
        p.registry.analyzers.file.toList.flatMap (fun a => a.decl.events h parsers) ∧
      (∀ a ∈ p.registry.analyzers.protocol.toList, ∀ b ∈ a.decl.bindings h parsers,
        h.Oldest ⟨.protocol, a.id⟩ a.decl.name b.id) ∧
      ∀ a ∈ p.registry.analyzers.file.toList, ∀ e ∈ a.decl.events h parsers,
        ∃ id mimeType, e = mimeTypeBinding id mimeType ∧ h.Oldest ⟨.file, a.id⟩ a.decl.name id := by
  intro h parsers s
  have hall := resolves_afterScripts hp.placed hphase hok
  have hs := hp.sound hroom
  refine ⟨hall.bindings, hall.events, ?_, ?_⟩
  · intro a ha b hb
    have hget := hp.placed.protocol.mem_toList.mp ha
    have hd : p.registry.analyzers.descriptor? ⟨.protocol, a.id⟩ = some a.descriptor :=
      congrArg (Option.map ProtocolAnalyzer.descriptor) hget
    exact hs.oldest hd (ProtocolDecl.id?_of_mem_bindings hb)
  · intro a ha e he
    have hget := hp.placed.file.mem_toList.mp ha
    have hd : p.registry.analyzers.descriptor? ⟨.file, a.id⟩ = some a.descriptor :=
      congrArg (Option.map FileAnalyzer.descriptor) hget
    obtain ⟨id, mimeType, hid, rfl⟩ := FileDecl.id?_of_mem_events he
    exact ⟨id, mimeType, rfl, hs.oldest hd hid⟩

/-- A plugin's analyzer has the name of one that the host ships with. -/
def namesake : Plugin LocalHost :=
  (bare ((LocalHost.new 0 "" true).addBuiltin "HTTP" .tcp).2).after
    [.register (.protocol ⟨"HTTP", .tcp, [⟨80, .tcp⟩], "", "", ""⟩)]

theorem reached_namesake : namesake.Reached :=
  (reached_bare (.addBuiltin "HTTP" .tcp (.new 0 "" true))).after _

/-- The declared port goes to the host's own analyzer. -/
theorem namesake_binds_builtin :
    (afterScripts namesake).result = .ok () ∧
      (afterScripts namesake).state.registry.host.portBindings = [⟨1, .tcp, 80⟩] ∧
      namesake.registry.host.Oldest ⟨.protocol, 2⟩ "HTTP" 1 := by
  have hok : (afterScripts namesake).result = .ok () := by decide +kernel
  have hroom : namesake.registry.host.Roomy := fun kind => by cases kind <;> decide +kernel
  have hbinds := (resolution_binds_oldest reached_namesake hroom rfl hok).2.2.1
  refine ⟨hok, by decide +kernel, ?_⟩
  exact hbinds
    ⟨2, ⟨"HTTP", .tcp, [⟨80, .tcp⟩], "", "", ""⟩, scriptLocation "HTTP", none, none, none⟩
    (by decide +kernel) ⟨1, .tcp, 80⟩ (by decide +kernel)

end Plugin

end TrafficAnalyzers
