import TrafficAnalyzers.Proofs.Roster.Registration
import TrafficAnalyzers.Proofs.Traces
import TrafficAnalyzers.Registry.Toggle
/-!
Toggles seen on the roster. Main statement: a toggle switches the component of a tag whose slot is
set, and the component of the replaced analyzer the other way; other components it leaves alone.
-/
namespace TrafficAnalyzers

namespace Roster

/-- Switches a registered analyzer, and what it replaces the other way. -/
def toggle (tag : Tag) (enable : Bool) (o : Roster) : Roster :=
  match o.descriptor? tag with
  | none => o
  | some d =>
    match d.replaces with
    | none => o.switch tag enable
    | some id => (o.switch tag enable).switch ⟨tag.kind, id⟩ (!enable)

/-- Whether a component carries the tag. -/
def carries (o : Roster) (tag : Tag) : Bool := o.components.any (·.tag = some tag)

theorem carries_of_mem {o : Roster} {c : ComponentRecord} (hc : c ∈ o.components) {tag : Tag}
    (htag : c.tag = some tag) : o.carries tag = true :=
  List.any_eq_true.mpr ⟨c, hc, decide_eq_true htag⟩

/-- For every record a component carries its tag. -/
def Carried (o : Roster) : Prop := ∀ tag d, o.descriptor? tag = some d → o.carries tag = true

theorem carries_switch (tag : Tag) (enabled : Bool) (o : Roster) :
    (o.switch tag enabled).carries = o.carries := by
  funext t
  have hany (cs : List ComponentRecord) :
      cs.any (·.tag = some t) = (cs.map (·.tag)).any (· = some t) := by
    rw [List.any_map]
    rfl
  simp only [carries, hany, switch]
  rw [map_enableIn _ fun _ _ => rfl]

/-- Components keep their tags, and a record comes with its component. -/
theorem Carried.step {o o' : Roster} (h : o.Carried) (hstep : Step o o') : o'.Carried := by
  cases hstep with
  | switch tag enabled =>
    intro t d hd
    rw [carries_switch]
    exact h t d hd
  | enrol entry name replaces replacedName =>
    have hold (t : Tag) (d : Descriptor) (hd : o.descriptor? t = some d) :
        (o.enrol entry name replaces replacedName).carries t = true := by
      have hcarried := h t d hd
      simp only [carries] at hcarried ⊢
      simp [enrol, hcarried]
    intro t d hd
    by_cases h0 : o.next entry.kind = 0
    · simp only [enrol, if_pos h0] at hd
      exact hold t d hd
    · simp only [enrol, if_neg h0, Function.update_apply] at hd
      split at hd
      next htag => simp [htag, carries, enrol]
      next => exact hold t d hd

theorem Carried.leads {o o' : Roster} (h : o.Carried) (hleads : o.Leads o') : o'.Carried := by
  induction hleads with
  | refl => exact h
  | tail _ hstep ih => exact ih.step hstep

theorem enableIn_of_not_carried {tag : Tag} {cs : List ComponentRecord}
    (h : cs.any (·.tag = some tag) = false) (enable : Bool) :
    LocalHost.enableIn tag enable cs = cs := by
  induction cs with
  | nil => rfl
  | cons c cs ih =>
    rw [List.any_cons, Bool.or_eq_false_iff] at h
    rw [LocalHost.enableIn, if_neg (of_decide_eq_false h.1), ih h.2]

theorem switch_of_not_carries {o : Roster} {tag : Tag} (h : o.carries tag = false) (enable : Bool) :
    o.switch tag enable = o := by
  rw [switch, enableIn_of_not_carried h]

end Roster

/-- Whether toggles of a kind reach the components. -/
def LocalHost.canToggle (h : LocalHost) : Kind → Bool
  | .protocol => true
  | .file => h.fileToggle
  | .packet => false

namespace Registry

theorem roster_toggleProtocol (id : UInt32) (enable : Bool) (r : Registry LocalHost) :
    (toggleProtocol id enable r).state.roster = r.roster.toggle ⟨.protocol, id⟩ enable := by
  have hdesc : r.roster.descriptor? ⟨.protocol, id⟩ =
      (r.analyzers.protocol.get? id).map (·.descriptor) := rfl
  rw [state_eq_silent, toggleProtocol, Op.silent_read_bind,
    Roster.toggle, hdesc]
  cases r.analyzers.protocol.get? id with
  | none => rfl
  | some p =>
    obtain ⟨_, _, _, replaces, _, _⟩ := p
    cases replaces <;> rfl

/-- If the host can disable file analyzers and has a component for the tag, the file analyzer is
toggled; else nothing happens. -/
theorem roster_toggleFile (id : UInt32) (enable : Bool) (r : Registry LocalHost) :
    (toggleFile id enable r).state.roster =
      if r.roster.fileToggle && r.roster.carries ⟨.file, id⟩ then
        r.roster.toggle ⟨.file, id⟩ enable
      else r.roster := by
  have hdesc : r.roster.descriptor? ⟨.file, id⟩ =
      (r.analyzers.file.get? id).map (·.descriptor) := rfl
  have hable : Host.supportsFileToggle r.host = r.roster.fileToggle := rfl
  rw [state_eq_silent, toggleFile, Op.silent_read_bind, Roster.toggle,
    hdesc]
  cases r.analyzers.file.get? id with
  | none => exact (ite_self _).symm
  | some p =>
    simp only
    rw [silent_query_bind, hable]
    cases r.roster.fileToggle with
    | false => rfl
    | true =>
      have hcarried : (Host.setFileEnabled id enable r.host).1 = r.roster.carries ⟨.file, id⟩ := rfl
      simp only [↓reduceIte, Bool.true_and]
      rw [Op.silent_debug_bind, silent_askHost_bind, hcarried]
      cases hc : r.roster.carries ⟨.file, id⟩ with
      | false => exact Roster.switch_of_not_carries hc enable
      | true =>
        obtain ⟨_, _, _, replaces, _⟩ := p
        cases replaces <;> rfl

theorem roster_togglePacket (id : UInt32) (r : Registry LocalHost) :
    (togglePacket id r).state.roster = r.roster := by
  rw [state_eq_silent, togglePacket, Op.silent_read_bind]
  cases r.analyzers.packet.get? id <;> rfl

theorem roster_toggle {r : Registry LocalHost} (hr : r.roster.Carried) (tag : Tag) (enable : Bool) :
    (toggle tag enable r).state.roster =
      if r.host.canToggle tag.kind then r.roster.toggle tag enable else r.roster := by
  obtain ⟨kind, id⟩ := tag
  cases kind with
  | protocol => exact roster_toggleProtocol id enable r
  | packet => exact roster_togglePacket id r
  | file =>
    change (toggleFile id enable r).state.roster =
      if r.roster.fileToggle then r.roster.toggle ⟨.file, id⟩ enable else r.roster
    rw [roster_toggleFile]
    cases hd : r.roster.descriptor? ⟨.file, id⟩ with
    | none => simp only [Roster.toggle, hd, ite_self]
    | some d => rw [hr ⟨.file, id⟩ d hd, Bool.and_true]

theorem follows_setProtocolEnabled (id : UInt32) (enable : Bool) :
    (changeHost (Host.setProtocolEnabled id enable)).Follows Leads :=
  fun r hr => ⟨hr, Roster.leads_switch ⟨.protocol, id⟩ enable r.roster⟩

theorem follows_setFileEnabled (id : UInt32) (enable : Bool) :
    (askHost (Host.setFileEnabled id enable)).Follows Leads :=
  fun r hr => ⟨hr, Roster.leads_switch ⟨.file, id⟩ enable r.roster⟩

section Toggle

variable {H : Type} [Host H] {R : Registry H → List Trace → Registry H → Prop} [Op.Chains R]

theorem yields_toggleProtocol (hdebug : ∀ text, (Op.debug text).Yields R)
    (hprotocol : ∀ id enable, (changeHost (Host.setProtocolEnabled id enable)).Yields R)
    (id : UInt32) (enable : Bool) : (toggleProtocol id enable).Yields R := by
  refine (Op.yields_read _).bind fun p => ?_
  cases p with
  | none => exact Op.yields_pure false
  | some p =>
    refine (hdebug _).bind fun _ => (hprotocol id enable).bind fun _ => ?_
    cases p.replaces with
    | none => exact Op.yields_pure true
    | some replaced =>
      exact (hdebug _).bind fun _ => (hprotocol replaced !enable).bind fun _ => Op.yields_pure true

theorem yields_toggleFile (hdebug : ∀ text, (Op.debug text).Yields R)
    (hfile : ∀ id enable, (askHost (Host.setFileEnabled id enable)).Yields R)
    (id : UInt32) (enable : Bool) : (toggleFile id enable).Yields R := by
  refine (Op.yields_read _).bind fun p => ?_
  cases p with
  | none => exact Op.yields_pure false
  | some p =>
    refine (Op.yields_read _).bind fun able => ?_
    cases able with
    | false => exact (hdebug _).bind fun _ => Op.yields_pure false
    | true =>
      refine (hdebug _).bind fun _ => (hfile id enable).bind fun found => ?_
      cases found with
      | false => exact Op.yields_raise _
      | true =>
        simp only [↓reduceIte]
        cases p.replaces with
        | none => exact Op.yields_pure true
        | some replaced =>
          exact (hdebug _).bind fun _ => (hfile replaced !enable).bind fun _ => Op.yields_pure true

omit [Host H] in
theorem yields_togglePacket (hdebug : ∀ text, (Op.debug text).Yields R) (id : UInt32) :
    (togglePacket id : Op (Registry H) Bool).Yields R := by
  refine (Op.yields_read _).bind fun p => ?_
  cases p with
  | none => exact Op.yields_pure false
  | some p => exact (hdebug _).bind fun _ => Op.yields_pure false

/-- A toggle yields what its messages and its requests to the host yield. -/
theorem yields_toggle (hdebug : ∀ text, (Op.debug text).Yields R)
    (hprotocol : ∀ id enable, (changeHost (Host.setProtocolEnabled id enable)).Yields R)
    (hfile : ∀ id enable, (askHost (Host.setFileEnabled id enable)).Yields R)
    (tag : Tag) (enable : Bool) : (toggle tag enable).Yields R := by
  obtain ⟨kind, id⟩ := tag
  cases kind with
  | protocol => exact yields_toggleProtocol hdebug hprotocol id enable
  | file => exact yields_toggleFile hdebug hfile id enable
  | packet => exact yields_togglePacket hdebug id

/-- A toggle follows what its requests to the host follow. -/
theorem follows_toggle {Q : Registry H → Registry H → Prop} [IsPreorder (Registry H) Q]
    (hprotocol : ∀ id enable, (changeHost (Host.setProtocolEnabled id enable)).Follows Q)
    (hfile : ∀ id enable, (askHost (Host.setFileEnabled id enable)).Follows Q)
    (tag : Tag) (enable : Bool) : (toggle tag enable).Follows Q := by
  have hdebug : ∀ text, (Op.debug text : Op (Registry H) Unit).Yields (Op.Between Q) :=
    fun _ r => refl r
  exact Op.follows_of_yields (yields_toggle hdebug hprotocol hfile tag enable)

end Toggle

end Registry

end TrafficAnalyzers
