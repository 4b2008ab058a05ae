import TrafficAnalyzers.Proofs.Toggles.Stock
/-!
What toggles answer. Main statements: a toggle answers yes exactly for tags with a stored record
whose kind the host can toggle, and otherwise does nothing; a toggle by a script value is the toggle
of the tag that the value names.
-/
namespace TrafficAnalyzers

namespace Registry

/-- Without a record, a toggle is answered before anything is done. -/
theorem toggle_of_unset {H : Type} [Host H] {r : Registry H} {tag : Tag}
    (hunset : r.analyzers.descriptor? tag = none) (enable : Bool) :
    toggle tag enable r = ⟨.ok false, r, []⟩ := by
  obtain ⟨kind, id⟩ := tag
  cases kind with
  | protocol =>
    have hslot : r.analyzers.protocol.get? id = none := Option.map_eq_none_iff.mp hunset
    simp [toggle, toggleProtocol, hslot]
  | file =>
    have hslot : r.analyzers.file.get? id = none := Option.map_eq_none_iff.mp hunset
    simp [toggle, toggleFile, hslot]
  | packet =>
    have hslot : r.analyzers.packet.get? id = none := Option.map_eq_none_iff.mp hunset
    simp [toggle, togglePacket, hslot]

variable {r : Registry LocalHost} {tag : Tag}

/-- What the host cannot toggle stays as it is. -/
theorem silent_toggle_unable (hunable : r.host.canToggle tag.kind = false) (enable : Bool) :
    (toggle tag enable r).silent = (.ok false, r) := by
  obtain ⟨kind, id⟩ := tag
  cases kind with
  | protocol => contradiction
  | packet =>
    rw [toggle, togglePacket, Op.silent_read_bind]
    cases r.analyzers.packet.get? id <;> rfl
  | file =>
    have hable : Host.supportsFileToggle r.host = false := hunable
    rw [toggle, toggleFile, Op.silent_read_bind]
    cases r.analyzers.file.get? id with
    | none => rfl
    | some p =>
      simp only
      rw [silent_query_bind, hable]
      rfl

theorem silent_toggle_others
    (hothers : ¬ (r.host.canToggle tag.kind = true ∧ r.analyzers.descriptor? tag ≠ none))
    (enable : Bool) : (toggle tag enable r).silent = (.ok false, r) := by
  cases hable : r.host.canToggle tag.kind with
  | false => exact silent_toggle_unable hable enable
  | true =>
    have hunset : r.analyzers.descriptor? tag = none := by
      by_contra hset
      exact hothers ⟨hable, hset⟩
    rw [toggle_of_unset hunset]
    rfl

/-- A toggle that reaches the analyzer of a record cannot fail: a component carries its tag. -/
theorem result_toggle_set (hr : r.roster.Carried) (hset : r.analyzers.descriptor? tag ≠ none)
    (hable : r.host.canToggle tag.kind = true) (enable : Bool) :
    (toggle tag enable r).result = .ok true := by
  obtain ⟨d, hd⟩ := Option.ne_none_iff_exists'.mp hset
  have hcarried : r.host.carries tag = true := hr tag d hd
  obtain ⟨kind, id⟩ := tag
  change (toggle ⟨kind, id⟩ enable r).silent.1 = .ok true
  cases kind with
  | packet => contradiction
  | protocol =>
    obtain ⟨p, hp, -⟩ := Option.map_eq_some_iff.mp hd
    rw [toggle, toggleProtocol, Op.silent_read_bind, hp]
    cases hreplaces : p.replaces <;> simp [hreplaces, Outcome.silent, switchProtocol]
  | file =>
    obtain ⟨p, hp, -⟩ := Option.map_eq_some_iff.mp hd
    have hsupports : Host.supportsFileToggle r.host = true := hable
    have hfound : (Host.setFileEnabled id enable r.host).1 = true := hcarried
    rw [toggle, toggleFile, Op.silent_read_bind, hp]
    simp only
    rw [silent_query_bind, hsupports, if_pos rfl, Op.silent_debug_bind, silent_askHost_bind, hfound]
    cases hreplaces : p.replaces <;> simp [Outcome.silent]

/-- The host takes a value for a tag exactly if a component carries it. -/
theorem tagOfValue?_enumValue (h : LocalHost) (tag : Tag) :
    tagOfValue? h (LocalHost.enumValue tag) = if h.carries tag then some tag else none := by
  obtain ⟨kind, id⟩ := tag
  cases kind <;> rfl

theorem tagOfValue?_foreign (h : LocalHost) {value : EnumValue}
    (hforeign : ∀ kind, value.typeName ≠ LocalHost.typeName kind) : tagOfValue? h value = none := by
  have hnone : Kind.all.find? (fun kind => Host.tagTypeName h kind = value.typeName) = none := by
    rw [List.find?_eq_none]
    intro kind _
    have hname : Host.tagTypeName h kind = LocalHost.typeName kind := rfl
    simpa [hname] using (hforeign kind).symm
  rw [tagOfValue?, hnone, Option.bind_none]

theorem toggleValue_apply (value : EnumValue) (enable : Bool) (r : Registry LocalHost) :
    toggleValue value enable r = (tagOfValue? r.host value).elim ⟨.ok false, r, []⟩
      fun tag => toggle tag enable r := by
  cases hvalue : tagOfValue? r.host value <;> simp [toggleValue, query, hvalue]

/-- A value of a tag that no component carries, and the tag itself, both come to nothing. -/
theorem toggleValue_enumValue (hr : r.roster.Carried) (tag : Tag) (enable : Bool) :
    toggleValue (LocalHost.enumValue tag) enable r = toggle tag enable r := by
  rw [toggleValue_apply, tagOfValue?_enumValue]
  cases hcarried : r.host.carries tag with
  | true => rfl
  | false =>
    have hunset : r.analyzers.descriptor? tag = none := by
      by_contra hset
      obtain ⟨d, hd⟩ := Option.ne_none_iff_exists'.mp hset
      have hcarries : r.host.carries tag = true := hr tag d hd
      rw [hcarried] at hcarries
      contradiction
    exact (toggle_of_unset hunset enable).symm

end Registry

namespace Plugin

/-- Script values and tags toggle alike: what scripts call a tag is known by the host exactly if a
component carries the tag, the toggle by that value is the toggle of the tag in its answer, its
traces and the plugin that it leaves, and a value of any other type changes nothing. -/
theorem toggles_agree {p : Plugin LocalHost} (hp : p.Reached) :
    (∀ tag enable, toggleValue (LocalHost.enumValue tag) enable p = toggle tag enable p) ∧
      (∀ tag, Registry.tagOfValue? p.registry.host (LocalHost.enumValue tag) = some tag ↔
        ∃ c ∈ p.registry.host.components, c.tag = some tag) ∧
      ∀ value enable, (∀ kind, value.typeName ≠ LocalHost.typeName kind) →
        toggleValue value enable p = ⟨.ok false, p, []⟩ := by
  refine ⟨fun tag enable => ?_, fun tag => ?_, fun value enable hforeign => ?_⟩
  · have hsame := Registry.toggleValue_enumValue hp.carried tag enable
    simp [toggleValue, toggle, onRegistry, hsame]
  · rw [Registry.tagOfValue?_enumValue]
    simp [LocalHost.carries]
  · have hnone := Registry.tagOfValue?_foreign p.registry.host hforeign
    simp [toggleValue, onRegistry, Registry.toggleValue_apply, hnone]

/-- The number of a protocol analyzer, that of one the host ships with, and others that no component
has, under the names that scripts have for them and under none. -/
theorem paired_toggles_agree :
    toggleValue ⟨"Analyzer::Tag", 2⟩ false paired = toggle ⟨.protocol, 2⟩ false paired ∧
      toggleValue ⟨"Analyzer::Tag", 1⟩ false paired = toggle ⟨.protocol, 1⟩ false paired ∧
      toggleValue ⟨"Files::Tag", 2⟩ false paired = toggle ⟨.file, 2⟩ false paired ∧
      Registry.tagOfValue? paired.registry.host ⟨"Analyzer::Tag", 2⟩ = some ⟨.protocol, 2⟩ ∧
      Registry.tagOfValue? paired.registry.host ⟨"Files::Tag", 2⟩ ≠ some ⟨.file, 2⟩ ∧
      toggleValue ⟨"Log::ID", 2⟩ false paired = ⟨.ok false, paired, []⟩ := by
  obtain ⟨hagree, hknown, hforeign⟩ := toggles_agree reached_paired
  refine ⟨hagree ⟨.protocol, 2⟩ false, hagree ⟨.protocol, 1⟩ false, hagree ⟨.file, 2⟩ false,
    (hknown ⟨.protocol, 2⟩).mpr ?_, mt (hknown ⟨.file, 2⟩).mp ?_, hforeign _ false ?_⟩
  · exact ⟨⟨⟨"New", .tcp⟩, some ⟨.protocol, 2⟩, true, false⟩, by decide +kernel, rfl⟩
  · decide +kernel
  · intro kind
    cases kind <;> decide

/-- What a toggle answers, if `log` are the records that were stored. -/
structure Answers (log : List AnalyzerRecord) (p : Plugin LocalHost) (tag : Tag) (enable : Bool) :
    Prop where
  yes : (toggle tag enable p).result = .ok true ↔
    p.registry.host.canToggle tag.kind = true ∧ ∃ d ∈ log, d.tag = tag
  /-- In all other cases the plugin stays as it is, and its host with it. -/
  no : ¬ (p.registry.host.canToggle tag.kind = true ∧ ∃ d ∈ log, d.tag = tag) →
    (toggle tag enable p).silent = (.ok false, p)
  never : ∀ fault, (toggle tag enable p).result ≠ .error fault

/-- Toggles answer by the slots that are set. -/
theorem answers_of_stocks {p : Plugin LocalHost} (hr : p.registry.roster.Carried)
    {log : List AnalyzerRecord} (hlog : p.registry.analyzers.Stocks log) (tag : Tag)
    (enable : Bool) : p.Answers log tag enable := by
  by_cases hours : p.registry.host.canToggle tag.kind = true ∧ ∃ d ∈ log, d.tag = tag
  · have hresult : (toggle tag enable p).result = .ok true :=
      Registry.result_toggle_set hr ((hlog tag).mpr hours.2) hours.1 enable
    refine ⟨iff_of_true hresult hours, fun hothers => absurd hours hothers, ?_⟩
    simp [hresult]
  · have hothers : ¬ (p.registry.host.canToggle tag.kind = true ∧
        p.registry.analyzers.descriptor? tag ≠ none) := by
      rwa [hlog tag]
    have hsilent : (toggle tag enable p).silent = (.ok false, p) := by
      rw [toggle, silent_onRegistry, Registry.silent_toggle_others hothers]
    have hresult : (toggle tag enable p).result = .ok false := congrArg Prod.fst hsilent
    refine ⟨iff_of_false ?_ hours, fun _ => hsilent, ?_⟩
    · simp [hresult]
    · simp [hresult]

/-- After any calls, toggles never fail. They answer yes exactly for tags of a kind that the host
can toggle under which one of the registrations stored a record, and else leave everything as it
is. -/
theorem toggle_answers {settings : Settings} {host : LocalHost} {failures : List RuntimeFailure}
    {p : Plugin LocalHost} (hhost : host.Shipped) (hp : Plugin.new settings host failures = .ok p)
    (calls : List Call) :
    (∃ log, p.Stocked log (p.after calls)) ∧
      ∀ log, p.Stocked log (p.after calls) →
        ∀ tag enable, (p.after calls).Answers log tag enable := by
  have hreached : p.Reached := .new hhost hp
  have hempty : p.registry.analyzers = .empty := by
    rw [(registry_of_new hp).1]
    rfl
  constructor
  · exact stocked_after hreached.placed calls
  · intro log hlog tag enable
    exact answers_of_stocks (hreached.after calls).carried (hlog.stocks hempty) tag enable

/-- A host that has a file analyzer of its own and cannot turn off any. -/
def unswitchable : LocalHost := ((LocalHost.new 0 "" false).addBuiltin "Old" .file).2

theorem shipped_unswitchable : unswitchable.Shipped := .addBuiltin "Old" .file (.new 0 "" false)

def motley : List Registration :=
  [.file ⟨"New", [], "", "Old"⟩, .protocol ⟨"P", .tcp, [], "", "", ""⟩, .packet ⟨"K", ""⟩]

/-- Of analyzers of all kinds on such a host, only the protocol analyzer can be toggled. -/
theorem unswitchable_answers :
    let p := bare unswitchable
    let q := p.after (motley.map .register)
    ∃ log, p.Stocked log q ∧ log.map (·.tag) = [⟨.file, 2⟩, ⟨.protocol, 1⟩, ⟨.packet, 1⟩] ∧
      (toggle ⟨.protocol, 1⟩ false q).result = .ok true ∧
      ∀ tag ∈ [⟨.protocol, 0⟩, ⟨.protocol, 2⟩, ⟨.file, 1⟩, ⟨.file, 2⟩, ⟨.packet, 1⟩],
        (toggle tag false q).silent = (.ok false, q) := by
  intro p q
  obtain ⟨-, hanswers⟩ := toggle_answers shipped_unswitchable
    (show Plugin.new bareSettings unswitchable [] = .ok p from rfl) (motley.map .register)
  have hfirst := (Stocked.start (p := p)).register (.file ⟨"New", [], "", "Old"⟩) rfl
  have hsecond := hfirst.register (.protocol ⟨"P", .tcp, [], "", "", ""⟩) rfl
  have hthird := hsecond.register (.packet ⟨"K", ""⟩) rfl
  refine ⟨_, hthird, by decide +kernel, ?_, ?_⟩
  · exact (hanswers _ hthird ⟨.protocol, 1⟩ false).yes.mpr (by decide +kernel)
  · intro tag htag
    apply (hanswers _ hthird tag false).no
    revert tag
    decide +kernel

end Plugin

end TrafficAnalyzers
