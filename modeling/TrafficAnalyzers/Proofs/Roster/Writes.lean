import TrafficAnalyzers.Proofs.Roster.Invariant
import TrafficAnalyzers.Proofs.Roster.Toggle
/-!
Who turned a component on or off, and when last. Main statements: after registrations and toggles
every component is in the state last written to it, and an analyzer's own writes leave the one it
replaces in the opposite state.
-/
namespace TrafficAnalyzers

/-- In the course of registering or toggling an analyzer a component is turned on or off. -/
structure Write where
  author : Tag
  target : Tag
  enabled : Bool
  deriving DecidableEq, Repr

/-- The last write to a component of one of the tags. -/
def lastWrite (log : List Write) (tags : List Tag) : Option Write :=
  log.reverse.find? fun w => tags.contains w.target

def lastState (log : List Write) (tag : Tag) : Option Bool :=
  (lastWrite log [tag]).map (·.enabled)

theorem lastWrite_append (log ws : List Write) (tags : List Tag) :
    lastWrite (log ++ ws) tags = (lastWrite ws tags).or (lastWrite log tags) := by
  rw [lastWrite, List.reverse_append, List.find?_append, lastWrite, lastWrite]

theorem lastState_append (log ws : List Write) (tag : Tag) :
    lastState (log ++ ws) tag = (lastState ws tag).or (lastState log tag) := by
  rw [lastState, lastWrite_append, lastState, lastState]
  cases lastWrite ws [tag] <;> rfl

theorem lastState_singleton (w : Write) (tag : Tag) :
    lastState [w] tag = if w.target = tag then some w.enabled else none := by
  by_cases h : w.target = tag <;> simp [lastState, lastWrite, h]

theorem lastState_cons (w : Write) (ws : List Write) (tag : Tag) :
    lastState (w :: ws) tag =
      (lastState ws tag).or (if w.target = tag then some w.enabled else none) := by
  rw [← List.singleton_append, lastState_append, lastState_singleton]

theorem lastState_nil (tag : Tag) : lastState [] tag = none := rfl

theorem lastState_eq_none_of_lastWrite {ws : List Write} {tags : List Tag} {tag : Tag}
    (h : lastWrite ws tags = none) (htag : tag ∈ tags) : lastState ws tag = none := by
  rw [lastState, Option.map_eq_none_iff]
  simp only [lastWrite, List.find?_eq_none, List.mem_reverse, List.contains_eq_mem,
    decide_eq_true_eq, List.mem_singleton] at h ⊢
  exact fun w hw he => h w hw (he ▸ htag)

/-- Both components were written to, and to opposite states if the last write to either was made by
the analyzer of the first. -/
structure Opposed (log : List Write) (tag old : Tag) : Prop where
  written : lastState log tag ≠ none
  writtenOld : lastState log old ≠ none
  opposite : ∀ w, lastWrite log [tag, old] = some w → w.author = tag →
    lastState log old = (lastState log tag).map (!·)

/-- Writes of other analyzers do not bear on what an analyzer's own do. -/
theorem Opposed.append {log ws : List Write} {tag old : Tag} (h : Opposed log tag old)
    (hws : ∀ w ∈ ws, w.author ≠ tag) : Opposed (log ++ ws) tag old := by
  have hkeep (t : Tag) (ht : lastState log t ≠ none) : lastState (log ++ ws) t ≠ none := by
    rw [lastState_append]
    simp [Option.or_eq_none_iff, ht]
  refine ⟨hkeep tag h.written, hkeep old h.writtenOld, ?_⟩
  intro w hw hauthor
  rw [lastWrite_append] at hw
  cases hlast : lastWrite ws [tag, old] with
  | some found =>
    obtain rfl : found = w := by simpa [hlast] using hw
    have hmem : found ∈ ws := List.mem_reverse.mp (List.mem_of_find?_eq_some hlast)
    exact absurd hauthor (hws found hmem)
  | none =>
    rw [hlast, Option.none_or] at hw
    rw [lastState_append, lastState_append,
      lastState_eq_none_of_lastWrite hlast (List.mem_cons_self),
      lastState_eq_none_of_lastWrite hlast (List.mem_cons_of_mem tag List.mem_cons_self),
      Option.none_or, Option.none_or]
    exact h.opposite w hw hauthor

/-- Writes that set both, to opposite states. -/
theorem opposed_append {log ws : List Write} {tag old : Tag} {b : Bool}
    (htag : lastState ws tag = some b) (hold : lastState ws old = some !b) :
    Opposed (log ++ ws) tag old := by
  refine ⟨?_, ?_, fun _ _ _ => ?_⟩ <;> simp [lastState_append, htag, hold]

namespace Roster

/-- The writes of enrolling an analyzer: what it replaces goes off, and then it is on. -/
def enrolmentWrites (kind : Kind) (replaces : Option UInt32) (o : Roster) : List Write :=
  (replaces.toList.map fun id => ⟨⟨kind, o.next kind⟩, ⟨kind, id⟩, false⟩) ++
    [⟨⟨kind, o.next kind⟩, ⟨kind, o.next kind⟩, true⟩]

def toggleWrites (tag : Tag) (enable : Bool) (o : Roster) : List Write :=
  match o.descriptor? tag with
  | none => []
  | some d => ⟨tag, tag, enable⟩ :: d.replaces.toList.map fun id => ⟨tag, ⟨tag.kind, id⟩, !enable⟩

/-- A component is on unless it was last turned off. -/
def Kept (cs : List ComponentRecord) (log : List Write) : Prop :=
  ∀ c ∈ cs, ∀ tag, c.tag = some tag → c.enabled = (lastState log tag).getD true

/-- What the log of all writes says of the components. -/
structure Tracked (o : Roster) (log : List Write) : Prop where
  sound : o.Sound
  kept : Kept o.components log
  opposed : ∀ tag d id, o.descriptor? tag = some d → d.replaces = some id →
    Opposed log tag ⟨tag.kind, id⟩

theorem enableIn_eq_map {tag : Tag} {cs : List ComponentRecord}
    (h : cs.Pairwise fun c c' => c.tag = some tag → c'.tag ≠ some tag) (enabled : Bool) :
    LocalHost.enableIn tag enabled cs =
      cs.map fun c => if c.tag = some tag then { c with enabled } else c := by
  induction cs with
  | nil => rfl
  | cons c cs ih =>
    obtain ⟨hc, hcs⟩ := List.pairwise_cons.mp h
    rw [LocalHost.enableIn, List.map_cons]
    split
    next htag =>
      have hid : cs.map (fun c => if c.tag = some tag then { c with enabled } else c) = cs.map id :=
        List.map_congr_left fun c' hc' => if_neg (hc c' hc' htag)
      rw [hid, List.map_id]
    next => rw [ih hcs]

variable {o : Roster} {log : List Write}

theorem Sound.carried (hs : o.Sound) : o.Carried := by
  intro tag d hd
  obtain ⟨-, ⟨_, -, -, hmem⟩, -⟩ := hs.described tag d hd
  obtain ⟨c, hc, hmark⟩ := List.mem_map.mp hmem
  exact carries_of_mem hc (congrArg Mark.tag hmark)

theorem Sound.components_pairwise (hs : o.Sound) (tag : Tag) :
    o.components.Pairwise fun c c' => c.tag = some tag → c'.tag ≠ some tag := by
  refine (List.pairwise_map.mp hs.numbered.ascending).imp ?_
  intro c c' hlt htag htag'
  exact UInt32.lt_irrefl _ (hlt tag.kind tag.id tag.id htag htag')

theorem Kept.switch (hk : Kept o.components log) (hs : o.Sound) (w : Write) :
    Kept (o.switch w.target w.enabled).components (log ++ [w]) := by
  intro c hc tag htag
  rw [Roster.switch, enableIn_eq_map (hs.components_pairwise w.target), List.mem_map] at hc
  obtain ⟨c, hc, rfl⟩ := hc
  rw [lastState_append, lastState_singleton]
  split at htag
  next h =>
    have heq : w.target = tag := Option.some.inj (h.symm.trans htag)
    simp [h, heq]
  next h =>
    have hne : w.target ≠ tag := fun he => h (he ▸ htag)
    rw [if_neg h, if_neg hne, Option.none_or]
    exact hk c hc tag htag

theorem Kept.supersede (hk : Kept o.components log) (hs : o.Sound) (kind : Kind)
    (replaces : Option UInt32) (author : Tag) :
    Kept (o.supersede kind replaces).components
      (log ++ replaces.toList.map fun id => ⟨author, ⟨kind, id⟩, false⟩) := by
  cases replaces with
  | none => simpa [Roster.supersede] using hk
  | some id => exact hk.switch hs ⟨author, ⟨kind, id⟩, false⟩

theorem Kept.enrol (hk : Kept o.components log) (hs : o.Sound) (entry : Entry) (name : String)
    (replaces : Option UInt32) (replacedName : String) :
    Kept (o.enrol entry name replaces replacedName).components
      (log ++ [⟨⟨entry.kind, o.next entry.kind⟩, ⟨entry.kind, o.next entry.kind⟩, true⟩]) := by
  intro c hc tag htag
  rw [lastState_append, lastState_singleton]
  rcases List.mem_append.mp hc with hc | hc
  · -- The next number is free, so the new write is to none of the earlier components.
    have hne : (⟨entry.kind, o.next entry.kind⟩ : Tag) ≠ tag := by
      rintro rfl
      exact UInt32.lt_irrefl _ (hs.numbered.lt_next (List.mem_map_of_mem hc) htag)
    rw [if_neg hne, Option.none_or]
    exact hk c hc tag htag
  · obtain rfl := List.mem_singleton.mp hc
    rw [if_pos (Option.some.inj htag)]
    rfl

/-- A component that was written to is in the state last written to it. -/
theorem Tracked.lastState_eq (h : Tracked o log) {c : ComponentRecord} (hc : c ∈ o.components)
    {tag : Tag} (htag : c.tag = some tag) (hw : lastState log tag ≠ none) :
    lastState log tag = some c.enabled := by
  obtain ⟨enabled, hlast⟩ := Option.ne_none_iff_exists'.mp hw
  rw [h.kept c hc tag htag, hlast, Option.getD_some]

section Enrol

variable {entry : Entry} {name replacedName : String} {replaces : Option UInt32}

theorem author_of_mem_enrolmentWrites {kind : Kind} {w : Write}
    (hw : w ∈ o.enrolmentWrites kind replaces) : w.author = ⟨kind, o.next kind⟩ := by
  simp only [enrolmentWrites, List.mem_append, List.mem_map, List.mem_singleton] at hw
  rcases hw with ⟨id, -, rfl⟩ | rfl <;> rfl

/-- An analyzer's own registration leaves it on and what it replaces off. -/
theorem opposed_enrolmentWrites {kind : Kind} {id : UInt32} (hlt : id < o.next kind) :
    Opposed (log ++ o.enrolmentWrites kind (some id)) ⟨kind, o.next kind⟩ ⟨kind, id⟩ := by
  have hne : o.next kind ≠ id := fun he => UInt32.lt_irrefl _ (he ▸ hlt)
  apply opposed_append (b := true) <;>
    simp [enrolmentWrites, lastState_cons, lastState_nil, hne]

theorem Tracked.enrol (h : Tracked o log)
    (hrep : ∀ id, replaces = some id → o.id? entry.kind replacedName = some id)
    (hroom : tagCount ((o.supersede entry.kind replaces).enrol entry name replaces
      replacedName).marks entry.kind < UInt32.size - 1) :
    Tracked ((o.supersede entry.kind replaces).enrol entry name replaces replacedName)
      (log ++ o.enrolmentWrites entry.kind replaces) := by
  have hs := h.sound.supersede entry.kind replaces
  rw [marks_enrol, tagCount_append, if_pos rfl] at hroom
  refine ⟨hs.enrol (by rwa [id?_supersede]) hroom, ?_, ?_⟩
  · have hkept := (h.kept.supersede h.sound entry.kind replaces
      ⟨entry.kind, o.next entry.kind⟩).enrol hs entry name replaces replacedName
    rwa [next_supersede, List.append_assoc] at hkept
  · intro tag d id hd hid
    rw [descriptor?_enrol (hs.next_ne_zero entry.kind), descriptor?_supersede, next_supersede,
      Function.update_apply] at hd
    split at hd
    next htag =>
      obtain rfl := Option.some.inj hd
      obtain rfl : replaces = some id := hid
      subst htag
      obtain ⟨m, hm, htag, -⟩ := mem_marks_of_id? (hrep id rfl)
      exact opposed_enrolmentWrites (h.sound.numbered.lt_next hm htag)
    next hne =>
      refine (h.opposed tag d id hd hid).append fun w hw he => hne ?_
      rw [← he, author_of_mem_enrolmentWrites hw]

end Enrol

theorem author_of_mem_toggleWrites {tag : Tag} {enable : Bool} {w : Write}
    (hw : w ∈ o.toggleWrites tag enable) : w.author = tag := by
  unfold toggleWrites at hw
  split at hw
  · contradiction
  · simp only [List.mem_cons, List.mem_map] at hw
    rcases hw with rfl | ⟨id, -, rfl⟩ <;> rfl

theorem descriptor?_toggle (tag : Tag) (enable : Bool) (o : Roster) :
    (o.toggle tag enable).descriptor? = o.descriptor? := by
  unfold Roster.toggle
  split
  · rfl
  · split <;> rfl

/-- An analyzer's own toggle leaves it and what it replaces in opposite states. -/
theorem opposed_toggleWrites {tag : Tag} {d : Descriptor} {id : UInt32}
    (hd : o.descriptor? tag = some d) (hid : d.replaces = some id) (hlt : id < tag.id)
    (enable : Bool) : Opposed (log ++ o.toggleWrites tag enable) tag ⟨tag.kind, id⟩ := by
  obtain ⟨kind, n⟩ := tag
  have hne : n ≠ id := fun he => UInt32.lt_irrefl _ (he ▸ hlt)
  apply opposed_append (b := enable) <;>
    simp [toggleWrites, hd, hid, lastState_cons, lastState_nil, hne, hne.symm]

theorem Tracked.toggle (h : Tracked o log) (tag : Tag) (enable : Bool) :
    Tracked (o.toggle tag enable) (log ++ o.toggleWrites tag enable) := by
  have hopposed : ∀ t d id, (o.toggle tag enable).descriptor? t = some d → d.replaces = some id →
      Opposed (log ++ o.toggleWrites tag enable) t ⟨t.kind, id⟩ := by
    intro t d id hd hid
    rw [descriptor?_toggle] at hd
    by_cases ht : t = tag
    · subst ht
      exact opposed_toggleWrites hd hid ((h.sound.described t d hd).replaced id hid).1 enable
    · exact (h.opposed t d id hd hid).append fun w hw he =>
        ht (he.symm.trans (author_of_mem_toggleWrites hw))
  refine ⟨?_, ?_, hopposed⟩ <;> unfold Roster.toggle
  · cases o.descriptor? tag with
    | none => exact h.sound
    | some d =>
      cases hrep : d.replaces with
      | none => simpa only [hrep] using h.sound.switch tag enable
      | some id => simpa only [hrep] using (h.sound.switch tag enable).switch ⟨tag.kind, id⟩ !enable
  · unfold toggleWrites
    cases o.descriptor? tag with
    | none => simpa using h.kept
    | some d =>
      have hfirst := h.kept.switch h.sound ⟨tag, tag, enable⟩
      cases hrep : d.replaces with
      | none => simpa [hrep] using hfirst
      | some id =>
        have hboth := hfirst.switch (h.sound.switch tag enable) ⟨tag, ⟨tag.kind, id⟩, !enable⟩
        simpa [hrep] using hboth

end Roster

end TrafficAnalyzers
