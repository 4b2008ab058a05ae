import TrafficAnalyzers.Proofs.Modules.Loading
import TrafficAnalyzers.Proofs.Resolution.Finish
import TrafficAnalyzers.Proofs.Resolution.Outcome
import TrafficAnalyzers.Proofs.Turns
/-!
The parsers of records over the life of a plugin. Main statement: no record has a parser before the
runtime starts, and once a resolution succeeds every record keeps, for each of its names, the parser
that was first registered under that name.
-/
namespace TrafficAnalyzers

/-- What is kept for a declared name: the first of the parsers that have that very name, and no
parser for the empty name. -/
def ParserKept (parsers : List Parser) (name : String) (kept : Option Parser) : Prop :=
  if name = "" then kept = none
  else ∃ before parser after, parsers = before ++ parser :: after ∧ parser.name = name ∧
    (∀ other ∈ before, other.name ≠ name) ∧ kept = some parser

/-- Every record has the parsers of its names. -/
structure Analyzers.Supplied (parsers : List Parser) (a : Analyzers) : Prop where
  protocol : ∀ id p, a.protocol.get? id = some p →
    ParserKept parsers p.decl.originator p.originator ∧
      ParserKept parsers p.decl.responder p.responder
  file : ∀ id p, a.file.get? id = some p → ParserKept parsers p.decl.parser p.parser
  packet : ∀ id p, a.packet.get? id = some p → ParserKept parsers p.decl.parser p.parser

theorem parserKept_of_found {parsers : List Parser} {name : String} (h : ParserFound parsers name) :
    ParserKept parsers name (parserOf parsers name) := by
  unfold ParserKept parserOf
  split
  · rfl
  next hname =>
    obtain ⟨found, hmem, hfound⟩ := h.resolve_left hname
    have hsome : (parsers.find? (·.name = name)).isSome :=
      List.find?_isSome.mpr ⟨found, hmem, by simpa using hfound⟩
    obtain ⟨parser, hparser⟩ := Option.isSome_iff_exists.mp hsome
    obtain ⟨hthis, before, after, hsplit, hbefore⟩ := List.find?_eq_some_iff_append.mp hparser
    exact ⟨before, parser, after, hsplit, by simpa using hthis,
      fun other hother => by simpa using hbefore other hother, hparser⟩

/-- Resolved tables are supplied, whatever their records had before. -/
theorem Analyzers.supplied_resolved {h : LocalHost} {parsers : List Parser} {a : Analyzers}
    (ha : a.Placed) (hr : a.Resolvable h parsers) : (a.resolved parsers).Supplied parsers := by
  refine ⟨fun id p hp => ?_, fun id p hp => ?_, fun id p hp => ?_⟩ <;>
    rw [resolved, SlotTable.get?_map] at hp <;>
    obtain ⟨old, hold, rfl⟩ := Option.map_eq_some_iff.mp hp
  · have hdecl := hr.protocol old ((ha.protocol.listed.mem_iff old).mpr ⟨id, hold⟩)
    exact ⟨parserKept_of_found hdecl.originator, parserKept_of_found hdecl.responder⟩
  · have hdecl := hr.file old ((ha.file.listed.mem_iff old).mpr ⟨id, hold⟩)
    exact parserKept_of_found hdecl.parser
  · exact parserKept_of_found (hr.packet old ((ha.packet.listed.mem_iff old).mpr ⟨id, hold⟩))

namespace Registry

/-- Tables and runtime stay the same. -/
structure Spares (r r' : Registry LocalHost) : Prop where
  analyzers : r'.analyzers = r.analyzers
  runtime : r'.runtime = r.runtime

instance : IsPreorder (Registry LocalHost) Spares where
  refl _ := ⟨rfl, rfl⟩
  trans _ _ _ h h' := ⟨h'.analyzers.trans h.analyzers, h'.runtime.trans h.runtime⟩

theorem spares_assignPlaceholders : assignPlaceholders.Follows Spares := by
  intro r
  rw [state_of_silent (silent_assignPlaceholders r)]
  exact ⟨rfl, rfl⟩

theorem spares_toggle (tag : Tag) (enable : Bool) : (toggle tag enable).Follows Spares :=
  follows_toggle (fun _ _ _ => ⟨rfl, rfl⟩) (fun _ _ _ => ⟨rfl, rfl⟩) tag enable

end Registry

namespace Plugin

open Registry (resolve)

/-- What holds of the parsers of records, after the traces `t`. -/
structure ParsersKept (t : List Trace) (p : Plugin LocalHost) : Prop where
  placed : p.registry.analyzers.Placed
  unset : .runtime .started ∉ t →
    p.registry.runtime.options = none ∧ p.registry.analyzers.Unset
  supplied : p.phase = .resolved → p.registry.analyzers.Supplied p.registry.runtime.parsers

variable {t u : List Trace} {p q : Plugin LocalHost}

theorem parsersKept_new {settings : Settings} {host : LocalHost} {failures : List RuntimeFailure}
    (hnew : Plugin.new settings host failures = .ok p) : ParsersKept [] p := by
  obtain ⟨hregistry, hphase⟩ := registry_of_new hnew
  refine ⟨?_, fun _ => ⟨?_, ?_⟩, ?_⟩
  · rw [hregistry]
    exact Analyzers.placed_empty
  · rw [hregistry]
    rfl
  · rw [hregistry]
    exact Analyzers.unset_empty
  · rw [hphase]
    exact nofun

/-- As long as tables and runtime stay the same, nothing happens to the parsers of records. -/
theorem ParsersKept.of_eq (h : ParsersKept t p) (ha : q.registry.analyzers = p.registry.analyzers)
    (hr : q.registry.runtime = p.registry.runtime) (hphase : q.phase = p.phase) :
    ParsersKept (t ++ u) q := by
  refine ⟨ha ▸ h.placed, fun hnot => ?_, fun hq => ?_⟩
  · rw [ha, hr]
    exact h.unset fun hin => hnot (List.mem_append_left u hin)
  · rw [ha, hr]
    exact h.supplied (hphase ▸ hq)

/-- Registrations bring records without parsers. -/
theorem ParsersKept.of_grows (h : ParsersKept t p) (hphase : q.phase = .registering)
    {v : List Trace} (hgrows : p.registry.Grows v q.registry) : ParsersKept (t ++ u) q := by
  refine ⟨h.placed.gains hgrows.analyzers, fun hnot => ?_, fun hq => ?_⟩
  · obtain ⟨hoptions, hunset⟩ := h.unset fun hin => hnot (List.mem_append_left u hin)
    exact ⟨hgrows.options.trans hoptions, hunset.gains hgrows.analyzers⟩
  · rw [hphase] at hq
    contradiction

/-- The runtime has its options only after it started. -/
theorem ParsersKept.started (h : ParsersKept t p) (hoptions : p.registry.runtime.options ≠ none) :
    .runtime .started ∈ t := by
  by_contra hnot
  exact hoptions (h.unset hnot).1

theorem ParsersKept.start (h : ParsersKept t p) (hphase : p.phase = .registering) :
    ParsersKept (t ++ (onRegistry startRuntime p).trace) (onRegistry startRuntime p).state := by
  change ParsersKept (t ++ (startRuntime p.registry).trace)
    { p with registry := (startRuntime p.registry).state }
  have hopen : p.phase ≠ .resolved := by simp [hphase]
  rw [startRuntime_apply]
  cases p.registry.runtime.failures with
  | nil =>
    refine ⟨h.placed, fun hnot => ?_, fun hq => absurd hq hopen⟩
    exact absurd (List.mem_append_right t (List.mem_singleton.mpr rfl)) hnot
  | cons failure failures =>
    exact ⟨h.placed, fun hnot => h.unset fun hin => hnot (List.mem_append_left _ hin),
      fun hq => absurd hq hopen⟩

theorem ParsersKept.move (h : ParsersKept t p) (hmove : Move p u q) : ParsersKept (t ++ u) q := by
  have hplaced : q.registry.analyzers.Placed := (hmove.leads h.placed).1
  cases hmove with
  | log => exact h.of_eq rfl rfl rfl
  | searchPath => exact h.of_eq rfl rfl rfl
  | register registration hphase =>
    exact h.of_grows hphase (Registry.grows_register registration p.registry)
  | load access path hphase =>
    obtain ⟨⟨_, hgrows⟩, hsame⟩ := grows_loadOnce access path p
    exact h.of_grows (hsame.trans hphase) hgrows
  | placeholders =>
    have hspares := Registry.spares_assignPlaceholders p.registry
    exact h.of_eq hspares.analyzers hspares.runtime rfl
  | start hphase => exact h.start hphase
  | stopResolving hphase hstarted =>
    have hin := h.started hstarted
    have hopen : p.phase ≠ .resolved := by simp [hphase]
    exact ⟨hplaced, fun hnot => absurd (List.mem_append_left _ hin) hnot,
      fun hq => absurd hq hopen⟩
  | resolve hphase hstarted hok =>
    have hin := h.started hstarted
    have hr := Registry.result_resolve_ok_iff.mp hok
    refine ⟨hplaced, fun hnot => absurd (List.mem_append_left _ hin) hnot, fun _ => ?_⟩
    change Analyzers.Supplied (resolve _ p.registry).state.runtime.parsers
      (resolve _ p.registry).state.analyzers
    rw [Registry.state_resolve_of_resolvable h.placed hr]
    exact Analyzers.supplied_resolved h.placed hr
  | toggle tag enable =>
    have hspares := Registry.spares_toggle tag enable p.registry
    exact h.of_eq hspares.analyzers hspares.runtime rfl
  | stop =>
    refine ⟨hplaced, fun hnot => ⟨rfl, ?_⟩, nofun⟩
    exact (h.unset fun hin => hnot (List.mem_append_left _ hin)).2

/-- All turns keep it. -/
theorem ParsersKept.turns (h : ParsersKept t p) (turns : List Turn) :
    ParsersKept (t ++ p.history turns) (p.live turns) :=
  keep_turns ParsersKept.move (fun _ h => ⟨h.placed, h.unset, h.supplied⟩)
    (fun _ h => ⟨h.placed, h.unset, h.supplied⟩) h turns

/-- The end of registration, with the parsers that all records keep from then on. -/
structure Settled (p : Plugin LocalHost) : Prop where
  phase : p.phase ≠ .registering
  supplied : p.registry.analyzers.Supplied p.registry.runtime.parsers

theorem Settled.move (h : Settled p) (hmove : Move p u q) : Settled q := by
  cases hmove with
  | log => exact h
  | searchPath => exact ⟨h.phase, h.supplied⟩
  | register _ hphase | load _ _ hphase | placeholders hphase | start hphase
  | stopResolving hphase | resolve hphase => exact absurd hphase h.phase
  | toggle tag enable =>
    have hspares := Registry.spares_toggle tag enable p.registry
    refine ⟨h.phase, ?_⟩
    change Analyzers.Supplied (Registry.toggle tag enable p.registry).state.runtime.parsers
      (Registry.toggle tag enable p.registry).state.analyzers
    rw [hspares.analyzers, hspares.runtime]
    exact h.supplied
  | stop => exact ⟨nofun, h.supplied⟩

theorem Settled.turns (h : Settled p) (turns : List Turn) : Settled (p.live turns) :=
  keep_turns (I := fun _ p => Settled p) (t := []) Settled.move
    (fun _ h => ⟨h.phase, h.supplied⟩) (fun _ h => ⟨h.phase, h.supplied⟩) h turns

/-- No record has a parser before the runtime starts. From a successful resolution on, also when the
plugin is finished, every record has the first parser of each of its names. -/
theorem parsers_supplied {settings : Settings} {host : LocalHost} {failures : List RuntimeFailure}
    {p : Plugin LocalHost} (hnew : Plugin.new settings host failures = .ok p)
    (turns : List Turn) :
    let q := p.live turns
    (.runtime .started ∉ p.history turns → q.registry.analyzers.Unset) ∧
      (q.phase = .resolved → ∀ later, let s := q.live later
        s.registry.analyzers.Supplied s.registry.runtime.parsers) := by
  intro q
  have hkept : ParsersKept (p.history turns) q := (parsersKept_new hnew).turns turns
  refine ⟨fun hnot => (hkept.unset hnot).2, fun hphase later => ?_⟩
  have hsettled : Settled q := ⟨by simp [hphase], hkept.supplied hphase⟩
  exact (hsettled.turns later).supplied

/-- A plugin whose runtime does not start the first time. -/
def reluctant : Plugin LocalHost :=
  ⟨bareSettings, .new (.new 0 "" true) [⟨"Exception", "not yet"⟩], .empty, .registering⟩

/-- Two analyzers, the parser of the first one, and a runtime that does not start. -/
def refused : List Turn :=
  [.call (.register (.protocol ⟨"P", .tcp, [], "", "Twice", ""⟩)),
    .call (.register (.file ⟨"F", [], "Late", ""⟩)),
    .call (.register (.parser ⟨"Twice", [], []⟩)), .call .afterScripts]

/-- A resolution that stops at the second analyzer, and one with more parsers that does not. -/
def retried : List Turn :=
  refused ++ [.call .afterScripts, .call (.register (.parser ⟨"Twice", [], ["a/b"]⟩)),
    .call (.register (.parser ⟨"Late", [], []⟩)), .call .afterScripts]

/-- The parser registered later under the same name is not taken. -/
theorem retried_keeps_first :
    let s := (reluctant.live retried).live [.call .finish]
    (reluctant.live refused).registry.analyzers.Unset ∧
      s.registry.analyzers.Supplied s.registry.runtime.parsers ∧
      s.registry.analyzers.protocolParser? 1 false = some ⟨"Twice", [], []⟩ := by
  intro s
  have hnew : Plugin.new bareSettings (.new 0 "" true) [⟨"Exception", "not yet"⟩] =
      .ok reluctant := rfl
  have hunset := (parsers_supplied hnew refused).1 (by decide +kernel)
  have hsupplied := (parsers_supplied hnew retried).2 (by decide +kernel) [.call .finish]
  exact ⟨hunset, hsupplied, by decide +kernel⟩

end Plugin

end TrafficAnalyzers
