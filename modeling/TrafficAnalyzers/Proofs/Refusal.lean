import TrafficAnalyzers.Host.Scripted
import TrafficAnalyzers.Proofs.Assignment
import TrafficAnalyzers.Proofs.Toggles
/-!
Registrations that store no record, over any host on which only the two setters change which of the
analyzers that are there are on. Main statement: what is skipped leaves everything as it is; when
the host refuses a tag, the analyzer that was to be replaced has been turned off, and that is all
that became of the analyzers that were there.
-/
namespace TrafficAnalyzers

/-- How to tell which analyzers of a host are on: turning one on or off concerns the one that is
found by its tag, and a new component is nothing to the others. -/
structure Host.Gauge (H ι : Type) [Host H] [DecidableEq ι] where
  enabled? : H → ι → Option Bool
  found? : H → Tag → Option ι
  protocol (id : UInt32) (enabled : Bool) (h : H) (i : ι) :
    enabled? (Host.setProtocolEnabled id enabled h) i =
      if found? h ⟨.protocol, id⟩ = some i then (enabled? h i).map fun _ => enabled
      else enabled? h i
  file (id : UInt32) (enabled : Bool) (h : H) (i : ι) :
    enabled? (Host.setFileEnabled id enabled h).2 i =
      if found? h ⟨.file, id⟩ = some i then (enabled? h i).map fun _ => enabled else enabled? h i
  component (c : Component) {h : H} {i : ι} {b : Bool} :
    enabled? h i = some b → enabled? (Host.addComponent c h).2 i = some b
  location (name : String) {h : H} {i : ι} {b : Bool} :
    enabled? h i = some b → enabled? (Host.addScriptLocation name h) i = some b
  init (n : Nat) {h : H} {i : ι} {b : Bool} :
    enabled? h i = some b → enabled? (Host.initComponent n h).2 i = some b

namespace Host.Gauge

variable {H ι : Type} [Host H] [DecidableEq ι] (g : Host.Gauge H ι)

/-- The analyzer that a newcomer turns off, if the host finds one by the name to be replaced. -/
def ousted? (n : Newcomer) (h : H) : Option ι :=
  (n.ousted? h).bind fun id => g.found? h ⟨n.entry.kind, id⟩

theorem enabled?_introduce (name : String) (entry : Entry) {h : H} {i : ι} {b : Bool}
    (hb : g.enabled? h i = some b) : g.enabled? (Host.introduce name entry h).2 i = some b :=
  g.init _ (g.location _ (g.component _ hb))

/-- Only the analyzer that is turned off changes, and only if it was on. -/
theorem enabled?_turnOff (n : Newcomer) {h : H} {i : ι} {b : Bool} (hb : g.enabled? h i = some b) :
    g.enabled? ((n.ousted? h).elim h (Host.turnOff h n.entry.kind)) i =
      some (b && decide (g.ousted? n h ≠ some i)) := by
  cases hid : n.ousted? h with
  | none => simp [ousted?, hid, hb]
  | some id =>
    obtain ⟨name, -, hknown⟩ := Option.bind_eq_some_iff.mp hid
    have hfound : g.ousted? n h = g.found? h ⟨n.entry.kind, id⟩ := by
      rw [ousted?, hid, Option.bind_some]
    rw [hfound]
    cases hkind : n.entry.kind with
    | packet =>
      rw [hkind] at hknown
      contradiction
    | protocol =>
      by_cases hi : g.found? h ⟨.protocol, id⟩ = some i <;>
        simp [Host.turnOff, g.protocol, hi, hb]
    | file =>
      by_cases hi : g.found? h ⟨.file, id⟩ = some i <;> simp [Host.turnOff, g.file, hi, hb]

end Host.Gauge

namespace Registry

/-- A host that ships with two analyzers and gives the next component no tag. -/
def refusing : ScriptedHost :=
  let shipped := ((LocalHost.new 0 "" true).addBuiltin "OLD" .tcp).2
  { ScriptedHost.ofLocal (shipped.addBuiltin "OTHER" .udp).2 with pending := some none }

/-- An analyzer that such a host refuses has turned off the one that it was to replace. -/
theorem refused_has_disabled :
    let r := Registry.new refusing []
    let x := Registration.protocol ⟨"X", .tcp, [], "", "", "OLD"⟩
    admitted? x r = none ∧ (register x r).result = .error (.missingTag "X") ∧
      r.host.inner.isEnabled? .protocol "OLD" = some true ∧
      (register x r).state.host.inner.isEnabled? .protocol "OLD" = some false := by
  decide +kernel

variable {H ι : Type} [Host H] [DecidableEq ι]

/-- What comes of the registration of a protocol or file analyzer that stores no record. -/
structure Refused (g : Host.Gauge H ι) (x : Registration) (r : Registry H) : Prop where
  /-- A transport without an entry: nothing is done. -/
  skipped : x.newcomer? (Host.supportsFileToggle r.host) = none →
    (register x r).silent = (.ok (), r)
  /-- No tag of use: the component stays at the host, and what it replaces stays off. -/
  failed : ∀ n, x.newcomer? (Host.supportsFileToggle r.host) = some n →
    (register x r).silent = (.error (.missingTag n.name), { r with host := (n.answer r.host).2 })
  /-- No analyzer that was there changes but the one to be replaced, which is off. -/
  others : ∀ i b, g.enabled? r.host i = some b → g.enabled? (register x r).state.host i =
    some (b && decide
      ((x.newcomer? (Host.supportsFileToggle r.host)).bind (g.ousted? · r.host) ≠ some i))

theorem silent_register_skipped {x : Registration} {r : Registry H}
    (hx : x.declares .protocol = true ∨ x.declares .file = true)
    (hn : x.newcomer? (Host.supportsFileToggle r.host) = none) :
    (register x r).silent = (.ok (), r) := by
  cases x with
  | protocol decl =>
    rw [register, registerProtocol, Op.silent_debug_bind, Option.map_eq_none_iff.mp hn]
    rfl
  | file | packet => exact absurd hn (Option.some_ne_none _)
  | parser | event | enumType => simp [Registration.declares, Registration.analyzer?] at hx

/-- A newcomer without a record has been refused its tag. -/
theorem silent_register_failed {x : Registration} {r : Registry H} {n : Newcomer}
    (hn : x.newcomer? (Host.supportsFileToggle r.host) = some n) (hnone : admitted? x r = none) :
    (register x r).silent =
      (.error (.missingTag n.name), { r with host := (n.answer r.host).2 }) := by
  rw [admitted?_newcomer hn, Option.map_eq_none_iff] at hnone
  rw [silent_register_newcomer hn, received, hnone]

/-- On a host where only the two setters change which of the analyzers that are there are on: a
registration that stores no record turns off no analyzer, unless it names one to be replaced and
the host then refuses it a tag. That analyzer, if the host knows it, is off, and no other has
changed. -/
theorem refused_spares_others (g : Host.Gauge H ι) (r : Registry H) {x : Registration}
    (hx : x.declares .protocol = true ∨ x.declares .file = true) (hnone : admitted? x r = none) :
    Refused g x r := by
  constructor
  · exact silent_register_skipped hx
  · exact fun n hn => silent_register_failed hn hnone
  · intro i b hb
    cases hn : x.newcomer? (Host.supportsFileToggle r.host) with
    | none =>
      rw [state_of_silent (silent_register_skipped hx hn)]
      simp [hb]
    | some n =>
      rw [state_of_silent (silent_register_failed hn hnone), Option.bind_some]
      exact g.enabled?_introduce n.name n.entry (g.enabled?_turnOff n hb)

end Registry

namespace LocalHost

/-- Analyzers of a host in memory are told by the number of their component. -/
def enabledAt? (h : LocalHost) (i : Nat) : Option Bool := h.components[i]?.map (·.enabled)

theorem enabledAt?_setEnabled (tag : Tag) (enabled : Bool) (h : LocalHost) (i : Nat) :
    (h.setEnabled tag enabled).enabledAt? i =
      if place? h.components tag = some i then (h.enabledAt? i).map fun _ => enabled
      else h.enabledAt? i := by
  rw [enabledAt?, setEnabled, getElem?_enableIn, enabledAt?]
  cases h.components[i]? with
  | none => simp
  | some c => by_cases hi : place? h.components tag = some i <;> simp [hi]

theorem enabledAt?_initComponent (n : Nat) (h : LocalHost) :
    (h.initComponent n).2.enabledAt? = h.enabledAt? := by
  unfold initComponent
  cases hn : h.components[n]? with
  | none => rfl
  | some c =>
    cases htag : c.tag with
    | some tag => simp [htag]
    | none =>
      funext i
      simp only [htag, enabledAt?, components_allocate, List.getElem?_modify]
      cases h.components[i]? with
      | none => rfl
      | some d => by_cases hi : n = i <;> simp [hi]

def gauge : Host.Gauge LocalHost Nat where
  enabled? := enabledAt?
  found? h := place? h.components
  protocol id enabled h i := enabledAt?_setEnabled ⟨.protocol, id⟩ enabled h i
  file id enabled h i := enabledAt?_setEnabled ⟨.file, id⟩ enabled h i
  component c h i b hb := by
    obtain ⟨d, hd, rfl⟩ := Option.map_eq_some_iff.mp hb
    have hkept : (h.components ++ [⟨c, none, true, false⟩])[i]? = some d := by
      rw [List.getElem?_append_left (List.getElem?_eq_some_iff.mp hd).1, hd]
    exact congrArg (Option.map (·.enabled)) hkept
  location name h i b hb := by
    unfold Host.addScriptLocation
    change (if h.scriptLocations.contains name then h else _).enabledAt? i = some b
    split <;> exact hb
  init n h i b hb := (congrFun (enabledAt?_initComponent n h) i).trans hb

end LocalHost

/-- A host that records its calls has its analyzers in memory. -/
def ScriptedHost.gauge : Host.Gauge ScriptedHost Nat where
  enabled? h := h.inner.enabledAt?
  found? h := place? h.inner.components
  protocol id enabled h := LocalHost.gauge.protocol id enabled h.inner
  file id enabled h := LocalHost.gauge.file id enabled h.inner
  component c h _ _ hb := LocalHost.gauge.component c (h := h.inner) hb
  location name h _ _ hb := LocalHost.gauge.location name (h := h.inner) hb
  init n h i b hb := by
    change (h.initComponent n).2.inner.enabledAt? i = some b
    unfold ScriptedHost.initComponent
    cases h.pending with
    | none => exact LocalHost.gauge.init n (h := h.inner) hb
    | some answer => exact hb

/-- The analyzer to be replaced is off, the other one as it was; over a transport without an entry
nothing is turned off. -/
theorem Registry.refused_spares_other :
    let r := Registry.new refusing []
    let x := Registration.protocol ⟨"X", .tcp, [], "", "", "OLD"⟩
    let y := Registration.protocol ⟨"Y", .icmp, [], "", "", "OLD"⟩
    (register x r).state.host.inner.enabledAt? 0 = some false ∧
      (register x r).state.host.inner.enabledAt? 1 = some true ∧
      (register y r).silent = (.ok (), r) := by
  intro r x y
  have hx : Refused ScriptedHost.gauge x r :=
    refused_spares_others ScriptedHost.gauge r (by decide +kernel) (by decide +kernel)
  have hy : Refused ScriptedHost.gauge y r :=
    refused_spares_others ScriptedHost.gauge r (by decide +kernel) (by decide +kernel)
  exact ⟨(hx.others 0 true rfl).trans (by decide +kernel),
    (hx.others 1 true rfl).trans (by decide +kernel), hy.skipped rfl⟩

end TrafficAnalyzers
