import TrafficAnalyzers.Proofs.Replacement
/-!
Toggles in any order. Main statement: they leave every component in the state last written to it and
change nothing else, so an analyzer toggled there and back is as before, and toggles that concern
different components can be made in either order.
-/
namespace TrafficAnalyzers

/-- The place of the component that the host finds by a tag, the oldest that carries it. -/
def place? (cs : List ComponentRecord) (tag : Tag) : Option Nat := cs.findIdx? (·.tag = some tag)

def LocalHost.carrier? (h : LocalHost) (tag : Tag) : Option ComponentRecord :=
  (place? h.components tag).bind (h.components[·]?)

/-- Does writes in their order, each to the component that is found by its tag. -/
def enact (log : List Write) (cs : List ComponentRecord) : List ComponentRecord :=
  log.foldl (fun cs w => LocalHost.enableIn w.target w.enabled cs) cs

/-- The state last written to the component in a place. -/
def lastAt (cs : List ComponentRecord) (log : List Write) (i : Nat) : Option Bool :=
  (log.reverse.find? fun w => place? cs w.target = some i).map (·.enabled)

/-- Every component in the state last written to it, or else in the state that it was in. -/
def settled (log : List Write) (cs : List ComponentRecord) : List ComponentRecord :=
  cs.mapIdx fun i c => { c with enabled := (lastAt cs log i).getD c.enabled }

section Places

variable {cs : List ComponentRecord} {tag : Tag} {i : Nat}

/-- Places depend on tags only. -/
theorem place?_congr {cs' : List ComponentRecord} (h : cs'.map (·.tag) = cs.map (·.tag)) :
    place? cs' = place? cs := by
  funext t
  have hmap (l : List ComponentRecord) : place? l t = (l.map (·.tag)).findIdx? (· = some t) := by
    rw [List.findIdx?_map]
    rfl
  rw [hmap, hmap, h]

theorem tag_of_place? (h : place? cs tag = some i) : ∃ c, cs[i]? = some c ∧ c.tag = some tag := by
  obtain ⟨hlt, htag, -⟩ := List.findIdx?_eq_some_iff_getElem.mp h
  exact ⟨cs[i], List.getElem?_eq_getElem hlt, by simpa using htag⟩

theorem tag_unique {tag' : Tag} (h : place? cs tag = some i) (h' : place? cs tag' = some i) :
    tag = tag' := by
  obtain ⟨c, hc, htag⟩ := tag_of_place? h
  obtain ⟨c', hc', htag'⟩ := tag_of_place? h'
  obtain rfl : c = c' := Option.some.inj (hc.symm.trans hc')
  exact Option.some.inj (htag.symm.trans htag')

/-- A tag that is carried once is found where it is carried. -/
theorem place?_of_pairwise (hcs : cs.Pairwise fun c c' => c.tag = some tag → c'.tag ≠ some tag)
    {c : ComponentRecord} (hc : cs[i]? = some c) (htag : c.tag = some tag) :
    place? cs tag = some i := by
  obtain ⟨hlt, rfl⟩ := List.getElem?_eq_some_iff.mp hc
  refine List.findIdx?_eq_some_iff_getElem.mpr ⟨hlt, by simpa using htag, fun j hj => ?_⟩
  have hother := List.pairwise_iff_getElem.mp hcs j i (Nat.lt_trans hj hlt) hlt hj
  simpa using fun htag' => hother htag' htag

theorem getElem?_enableIn (tag : Tag) (enabled : Bool) (cs : List ComponentRecord) (i : Nat) :
    (LocalHost.enableIn tag enabled cs)[i]? =
      cs[i]?.map fun c => if place? cs tag = some i then { c with enabled } else c := by
  induction cs generalizing i with
  | nil => rfl
  | cons c cs ih =>
    by_cases htag : c.tag = some tag
    · cases i <;> simp [LocalHost.enableIn, place?, List.findIdx?_cons, htag]
    · cases i with
      | zero => simp [LocalHost.enableIn, place?, List.findIdx?_cons, htag]
      | succ i =>
        simp only [LocalHost.enableIn, if_neg htag, List.getElem?_cons_succ, ih]
        simp [place?, List.findIdx?_cons, htag]
        rfl

theorem enableIn_eq_modify (h : place? cs tag = some i) (enabled : Bool) :
    LocalHost.enableIn tag enabled cs = cs.modify i ({ · with enabled }) := by
  apply List.ext_getElem?
  intro j
  rw [getElem?_enableIn, List.getElem?_modify, h]
  simp

theorem place?_enableIn (tag : Tag) (enabled : Bool) (cs : List ComponentRecord) :
    place? (LocalHost.enableIn tag enabled cs) = place? cs :=
  place?_congr (Roster.map_enableIn _ (fun _ _ => rfl) tag enabled cs)

end Places

theorem lastAt_append (cs : List ComponentRecord) (log ws : List Write) (i : Nat) :
    lastAt cs (log ++ ws) i = (lastAt cs ws i).or (lastAt cs log i) := by
  rw [lastAt, List.reverse_append, List.find?_append, lastAt, lastAt]
  cases ws.reverse.find? fun w => place? cs w.target = some i <;> rfl

theorem lastAt_singleton (cs : List ComponentRecord) (w : Write) (i : Nat) :
    lastAt cs [w] i = if place? cs w.target = some i then some w.enabled else none := by
  by_cases h : place? cs w.target = some i <;> simp [lastAt, h]

theorem exists_of_lastAt {cs : List ComponentRecord} {log : List Write} {i : Nat} {b : Bool}
    (h : lastAt cs log i = some b) : ∃ w ∈ log, place? cs w.target = some i ∧ w.enabled = b := by
  obtain ⟨w, hw, rfl⟩ := Option.map_eq_some_iff.mp h
  exact ⟨w, List.mem_reverse.mp (List.mem_of_find?_eq_some hw), by simpa using List.find?_some hw, rfl⟩

theorem not_place_of_lastAt {cs : List ComponentRecord} {log : List Write} {i : Nat}
    (h : lastAt cs log i = none) {w : Write} (hw : w ∈ log) : place? cs w.target ≠ some i := by
  have hnone := List.find?_eq_none.mp (Option.map_eq_none_iff.mp h) w (List.mem_reverse.mpr hw)
  simpa using hnone

/-- Writes leave every component in the state last written to it. -/
theorem enact_eq_settled (log : List Write) (cs : List ComponentRecord) :
    enact log cs = settled log cs := by
  induction log generalizing cs with
  | nil =>
    apply List.ext_getElem?
    intro i
    simp [enact, settled, lastAt]
  | cons w log ih =>
    have hlast (i : Nat) : lastAt cs (w :: log) i = (lastAt cs log i).or (lastAt cs [w] i) := by
      rw [← List.singleton_append, lastAt_append]
    change enact log (LocalHost.enableIn w.target w.enabled cs) = _
    rw [ih]
    apply List.ext_getElem?
    intro i
    simp only [settled, List.getElem?_mapIdx, getElem?_enableIn, hlast, lastAt_singleton,
      Option.map_map]
    congr 1
    funext c
    have hsame : lastAt (LocalHost.enableIn w.target w.enabled cs) log = lastAt cs log := by
      funext i
      rw [lastAt, place?_enableIn, lastAt]
    rw [Function.comp_apply, hsame]
    by_cases h : place? cs w.target = some i <;> cases lastAt cs log i <;> simp [h]

/-- Where the last writes are to the states that components are in, nothing changes. -/
theorem enact_eq_self {log : List Write} {cs : List ComponentRecord}
    (h : ∀ i c b, cs[i]? = some c → lastAt cs log i = some b → b = c.enabled) :
    enact log cs = cs := by
  rw [enact_eq_settled]
  apply List.ext_getElem?
  intro i
  rw [settled, List.getElem?_mapIdx]
  cases hc : cs[i]? with
  | none => rfl
  | some c =>
    cases hb : lastAt cs log i with
    | none => rfl
    | some b =>
      rw [Option.map_some, Option.getD_some, h i c b hc hb]

/-- Writes to different tags can be done in either order. -/
theorem enact_comm {log ws : List Write} (cs : List ComponentRecord)
    (h : ∀ w ∈ log, ∀ w' ∈ ws, w.target ≠ w'.target) :
    enact (log ++ ws) cs = enact (ws ++ log) cs := by
  have hlast (i : Nat) : lastAt cs (log ++ ws) i = lastAt cs (ws ++ log) i := by
    rw [lastAt_append, lastAt_append]
    cases hb : lastAt cs log i with
    | none => simp
    | some b =>
      cases hb' : lastAt cs ws i with
      | none => simp
      | some b' =>
        obtain ⟨w, hw, hplace, -⟩ := exists_of_lastAt hb
        obtain ⟨w', hw', hplace', -⟩ := exists_of_lastAt hb'
        exact absurd (tag_unique hplace hplace') (h w hw w' hw')
  rw [enact_eq_settled, enact_eq_settled, settled, settled]
  simp only [hlast]

namespace Registry

def withComponents (cs : List ComponentRecord) (r : Registry LocalHost) : Registry LocalHost :=
  { r with host := { r.host with components := cs } }

/-- The writes of a toggle, none if it does not reach the components. -/
def effects (r : Registry LocalHost) (tag : Tag) (enable : Bool) : List Write :=
  if r.host.canToggle tag.kind then r.roster.toggleWrites tag enable else []

/-- Nothing but components differs. -/
def Switches (r r' : Registry LocalHost) : Prop := r' = r.withComponents r'.host.components

instance : IsPreorder (Registry LocalHost) Switches where
  refl _ := rfl
  trans r r' r'' h h' := by
    rw [Switches] at h h' ⊢
    rw [h] at h'
    exact h'

theorem switches_toggle (tag : Tag) (enable : Bool) : (toggle tag enable).Follows Switches :=
  follows_toggle (fun _ _ _ => rfl) (fun _ _ _ => rfl) tag enable

/-- The components after a toggle that reaches them. -/
theorem components_toggle (tag : Tag) (enable : Bool) (o : Roster) :
    (o.toggle tag enable).components = enact (o.toggleWrites tag enable) o.components := by
  unfold Roster.toggle Roster.toggleWrites
  cases o.descriptor? tag with
  | none => rfl
  | some d => cases hrep : d.replaces <;> simp [hrep, enact, Roster.switch]

/-- A toggle does its writes and nothing else. -/
theorem state_toggle {r : Registry LocalHost} (hr : r.roster.Carried) (tag : Tag) (enable : Bool) :
    (toggle tag enable r).state =
      r.withComponents (enact (r.effects tag enable) r.host.components) := by
  have hsame : (toggle tag enable r).state =
      r.withComponents (toggle tag enable r).state.host.components := switches_toggle tag enable r
  have hroster := congrArg Roster.components (roster_toggle hr tag enable)
  rw [hsame, effects]
  split at hroster
  next hreach =>
    rw [components_toggle] at hroster
    rw [if_pos hreach]
    exact congrArg (withComponents · r) hroster
  next hreach =>
    rw [if_neg hreach]
    exact congrArg (withComponents · r) hroster

/-- The tags that a toggle concerns: its own and that of the replaced analyzer. -/
def concerned (r : Registry LocalHost) (tag : Tag) : List Tag :=
  tag :: (r.analyzers.replacedId? tag).toList.map (⟨tag.kind, ·⟩)

theorem mem_effects {r : Registry LocalHost} {tag : Tag} {enable : Bool} {w : Write} :
    w ∈ r.effects tag enable ↔ r.host.canToggle tag.kind ∧ r.analyzers.descriptor? tag ≠ none ∧
      (w = ⟨tag, tag, enable⟩ ∨ ∃ id, r.analyzers.replacedId? tag = some id ∧
        w = ⟨tag, ⟨tag.kind, id⟩, !enable⟩) := by
  have hdesc : r.roster.descriptor? tag = r.analyzers.descriptor? tag := rfl
  rw [effects, Roster.toggleWrites, hdesc, Plugin.replacedId?_eq]
  cases r.host.canToggle tag.kind with
  | false => simp
  | true =>
    cases r.analyzers.descriptor? tag with
    | none => simp
    | some d => simp [eq_comm]

theorem target_of_mem_effects {r : Registry LocalHost} {tag : Tag} {enable : Bool} {w : Write}
    (hw : w ∈ r.effects tag enable) : w.target ∈ r.concerned tag := by
  obtain ⟨-, -, rfl | ⟨id, hid, rfl⟩⟩ := mem_effects.mp hw
  · exact List.mem_cons_self
  · exact List.mem_cons_of_mem tag (by simp [hid])

/-- Both ways, a toggle writes to the same components. -/
theorem same_targets {r : Registry LocalHost} {tag : Tag} {enable : Bool} {w : Write}
    (hw : w ∈ r.effects tag enable) (enable' : Bool) :
    ∃ w' ∈ r.effects tag enable', w'.target = w.target := by
  obtain ⟨hreach, hset, rfl | ⟨id, hid, rfl⟩⟩ := mem_effects.mp hw
  · exact ⟨_, mem_effects.mpr ⟨hreach, hset, .inl rfl⟩, rfl⟩
  · exact ⟨_, mem_effects.mpr ⟨hreach, hset, .inr ⟨id, hid, rfl⟩⟩, rfl⟩

end Registry

namespace Plugin

variable {p : Plugin LocalHost}

theorem Reached.carried (hp : p.Reached) : p.registry.roster.Carried := by
  obtain ⟨host, -, hleads⟩ := hp.leads
  exact Roster.Carried.leads (o := Roster.unused host) nofun hleads

theorem carrier?_of_place {h : LocalHost} {tag : Tag} {i : Nat} {c : ComponentRecord}
    (hplace : place? h.components tag = some i) (hc : h.components[i]? = some c) :
    h.carrier? tag = some c := by
  rw [LocalHost.carrier?, hplace, Option.bind_some, hc]

/-- The plugin after toggles, in their order. -/
def toggled (toggles : List (Tag × Bool)) (p : Plugin LocalHost) : Plugin LocalHost :=
  p.after (toggles.map fun t => .toggle t.1 t.2)

/-- The writes of toggles, in their order. -/
def effects (toggles : List (Tag × Bool)) (p : Plugin LocalHost) : List Write :=
  toggles.flatMap fun t => p.registry.effects t.1 t.2

def withComponents (cs : List ComponentRecord) (p : Plugin LocalHost) : Plugin LocalHost :=
  { p with registry := p.registry.withComponents cs }

/-- Toggles do their writes and nothing else. -/
theorem toggled_eq (hp : p.Reached) (toggles : List (Tag × Bool)) : p.toggled toggles =
    p.withComponents (enact (p.effects toggles) p.registry.host.components) := by
  induction toggles generalizing p with
  | nil => rfl
  | cons t toggles ih =>
    obtain ⟨tag, enable⟩ := t
    have hfirst : (Call.toggle tag enable).leave p =
        p.withComponents (enact (p.registry.effects tag enable) p.registry.host.components) :=
      congrArg (fun r => { p with registry := r }) (Registry.state_toggle hp.carried tag enable)
    -- Tables and host options are the same for all toggles, and so are their writes.
    have hrest := ih (hp.call (.toggle tag enable))
    rw [hfirst] at hrest
    have hlog : enact (p.effects ((tag, enable) :: toggles)) p.registry.host.components =
        enact (p.effects toggles)
          (enact (p.registry.effects tag enable) p.registry.host.components) := by
      rw [effects, List.flatMap_cons, enact, List.foldl_append]
      rfl
    rw [hlog]
    change ((Call.toggle tag enable).leave p).toggled toggles = _
    rw [hfirst]
    exact hrest

/-- An analyzer that is on exactly if the one it replaces is off, toggled there and back. -/
theorem toggled_back (hp : p.Reached) {tag : Tag} {c : ComponentRecord} (away : Bool)
    (hc : p.registry.host.carrier? tag = some c)
    (hopposite : ∀ id c', p.registry.analyzers.replacedId? tag = some id →
      p.registry.host.carrier? ⟨tag.kind, id⟩ = some c' → c'.enabled = !c.enabled) :
    p.toggled [(tag, away), (tag, c.enabled)] = p := by
  have hself : enact (p.effects [(tag, away), (tag, c.enabled)]) p.registry.host.components =
      p.registry.host.components := by
    have hlog : p.effects [(tag, away), (tag, c.enabled)] =
        p.registry.effects tag away ++ p.registry.effects tag c.enabled := by simp [effects]
    rw [hlog]
    apply enact_eq_self
    intro i c' b hc' hb
    rw [lastAt_append] at hb
    cases hlast : lastAt p.registry.host.components (p.registry.effects tag c.enabled) i with
    | none =>
      -- Both toggles write to the same components.
      rw [hlast, Option.none_or] at hb
      obtain ⟨w, hw, hplace, -⟩ := exists_of_lastAt hb
      obtain ⟨w', hw', htarget⟩ := Registry.same_targets hw c.enabled
      exact absurd (htarget ▸ hplace) (not_place_of_lastAt hlast hw')
    | some b' =>
      obtain rfl : b' = b := by simpa [hlast] using hb
      obtain ⟨w, hw, hplace, rfl⟩ := exists_of_lastAt hlast
      have hfound := carrier?_of_place hplace hc'
      obtain ⟨-, -, rfl | ⟨id, hid, rfl⟩⟩ := Registry.mem_effects.mp hw
      · exact congrArg ComponentRecord.enabled (Option.some.inj (hc.symm.trans hfound))
      · exact (hopposite id c' hid hfound).symm
  rw [toggled_eq hp, hself]
  rfl

/-- Toggles that concern different tags. -/
theorem toggled_comm (hp : p.Reached) {tag tag' : Tag} (enable enable' : Bool)
    (h : (p.registry.concerned tag).Disjoint (p.registry.concerned tag')) :
    p.toggled [(tag, enable), (tag', enable')] = p.toggled [(tag', enable'), (tag, enable)] := by
  have hne : ∀ w ∈ p.registry.effects tag enable, ∀ w' ∈ p.registry.effects tag' enable',
      w.target ≠ w'.target := by
    intro w hw w' hw' he
    exact h (Registry.target_of_mem_effects hw) (he ▸ Registry.target_of_mem_effects hw')
  have hcomm := enact_comm p.registry.host.components hne
  rw [toggled_eq hp, toggled_eq hp]
  simp only [effects, List.flatMap_cons, List.flatMap_nil, List.append_nil, hcomm]

/-- With room for all numbers, only one component carries a tag, and it is found by it. -/
theorem place?_of_tag (hp : p.Reached) (hroom : p.registry.host.Roomy) {i : Nat}
    {c : ComponentRecord} {tag : Tag} (hc : p.registry.host.components[i]? = some c)
    (htag : c.tag = some tag) : place? p.registry.host.components tag = some i :=
  place?_of_pairwise ((hp.sound hroom).components_pairwise tag) hc htag

/-- After toggles every component is in the state last written to it, or in the one it was in before,
and nothing else has changed; a write goes to the oldest component of its tag, which is the only one
as long as numbers have room. Toggled there and back, an analyzer and the one it replaces are as
before; toggles that concern different tags can be made in either order. -/
theorem toggles_last_written (hp : p.Reached) (toggles : List (Tag × Bool)) :
    p.toggled toggles =
        p.withComponents (settled (p.effects toggles) p.registry.host.components) ∧
      (p.registry.host.Roomy → ∀ i c tag, p.registry.host.components[i]? = some c →
        c.tag = some tag → place? p.registry.host.components tag = some i) ∧
      (∀ tag c away, p.registry.host.carrier? tag = some c →
        (∀ id c', p.registry.analyzers.replacedId? tag = some id →
          p.registry.host.carrier? ⟨tag.kind, id⟩ = some c' → c'.enabled = !c.enabled) →
        p.toggled [(tag, away), (tag, c.enabled)] = p) ∧
      ∀ tag tag' enable enable',
        (p.registry.concerned tag).Disjoint (p.registry.concerned tag') →
        p.toggled [(tag, enable), (tag', enable')] = p.toggled [(tag', enable'), (tag, enable)] := by
  refine ⟨?_, fun hroom i c tag => place?_of_tag hp hroom, fun tag c away => toggled_back hp away,
    fun tag tag' => toggled_comm hp⟩
  rw [← enact_eq_settled]
  exact toggled_eq hp toggles

/-- One analyzer replaces what the host ships with, the other one stands alone. -/
def paired : Plugin LocalHost :=
  (bare shipping).after [.register (.protocol ⟨"New", .tcp, [], "", "", "Old"⟩),
    .register (.protocol ⟨"Alone", .udp, [], "", "", ""⟩)]

theorem reached_paired : paired.Reached := (reached_bare shipped_shipping).after _

/-- Turned off, the one analyzer turns on what it replaces; a tag without an analyzer does nothing. -/
theorem paired_toggled :
    (paired.toggled [(⟨.protocol, 2⟩, false), (⟨.protocol, 3⟩, false), (⟨.file, 1⟩, true)]) =
        paired.withComponents (settled [⟨⟨.protocol, 2⟩, ⟨.protocol, 2⟩, false⟩,
          ⟨⟨.protocol, 2⟩, ⟨.protocol, 1⟩, true⟩, ⟨⟨.protocol, 3⟩, ⟨.protocol, 3⟩, false⟩]
          paired.registry.host.components) ∧
      paired.toggled [(⟨.protocol, 2⟩, false), (⟨.protocol, 2⟩, true)] = paired ∧
      paired.toggled [(⟨.protocol, 2⟩, false), (⟨.protocol, 3⟩, false)] =
        paired.toggled [(⟨.protocol, 3⟩, false), (⟨.protocol, 2⟩, false)] := by
  obtain ⟨hsettled, -, hback, hcomm⟩ := toggles_last_written reached_paired
    [(⟨.protocol, 2⟩, false), (⟨.protocol, 3⟩, false), (⟨.file, 1⟩, true)]
  have heffects : paired.effects
      [(⟨.protocol, 2⟩, false), (⟨.protocol, 3⟩, false), (⟨.file, 1⟩, true)] =
      [⟨⟨.protocol, 2⟩, ⟨.protocol, 2⟩, false⟩, ⟨⟨.protocol, 2⟩, ⟨.protocol, 1⟩, true⟩,
        ⟨⟨.protocol, 3⟩, ⟨.protocol, 3⟩, false⟩] := by decide +kernel
  rw [heffects] at hsettled
  refine ⟨hsettled, ?_, hcomm _ _ _ _ ?_⟩
  · refine hback ⟨.protocol, 2⟩ ⟨⟨"New", .tcp⟩, some ⟨.protocol, 2⟩, true, false⟩ false
      (by decide +kernel) ?_
    intro id c' hid hc'
    obtain rfl : id = 1 := by
      have hone : paired.registry.analyzers.replacedId? ⟨.protocol, 2⟩ = some 1 := by decide +kernel
      exact Option.some.inj (hid.symm.trans hone)
    have hold : paired.registry.host.carrier? ⟨.protocol, 1⟩ =
        some ⟨⟨"Old", .tcp⟩, some ⟨.protocol, 1⟩, false, true⟩ := by decide +kernel
    exact Option.some.inj (hc'.symm.trans hold) ▸ rfl
  · have hpair : paired.registry.concerned ⟨.protocol, 2⟩ = [⟨.protocol, 2⟩, ⟨.protocol, 1⟩] := by
      decide +kernel
    have halone : paired.registry.concerned ⟨.protocol, 3⟩ = [⟨.protocol, 3⟩] := by decide +kernel
    rw [hpair, halone]
    simp

end Plugin

end TrafficAnalyzers
