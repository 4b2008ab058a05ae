import TrafficAnalyzers.Proofs.Assignment
import TrafficAnalyzers.Proofs.Modules.Completion
import TrafficAnalyzers.Proofs.Toggles
/-!
Which records registrations have stored, in any session. Main statement: the slots that are set are
those of the stored records, whatever else the plugin has done.
-/
namespace TrafficAnalyzers

/-- The tag of the analyzer itself. -/
def AnalyzerRecord.tag (d : AnalyzerRecord) : Tag := ⟨d.kind, d.descriptor.id⟩

namespace Analyzers

variable {a : Analyzers} {d : AnalyzerRecord} {log : List AnalyzerRecord}

theorem descriptor?_put (h0 : d.descriptor.id ≠ 0) :
    (a.put d).descriptor? = Function.update a.descriptor? d.tag (some d.descriptor) := by
  cases d with
  | protocol p => exact descriptor?_insertProtocol h0
  | file p => exact descriptor?_insertFile h0
  | packet p => exact descriptor?_insertPacket h0

/-- The slots that are set are those of the records in the log. -/
def Stocks (log : List AnalyzerRecord) (a : Analyzers) : Prop :=
  ∀ tag, a.descriptor? tag ≠ none ↔ ∃ d ∈ log, d.tag = tag

theorem stocks_empty : empty.Stocks [] := by
  intro tag
  simp [descriptor?_empty]

theorem Stocks.put (h : a.Stocks log) (h0 : d.descriptor.id ≠ 0) :
    (a.put d).Stocks (log ++ [d]) := by
  intro tag
  rw [descriptor?_put h0, Function.update_apply]
  by_cases htag : tag = d.tag
  · simp [htag]
  · simp [htag, Ne.symm htag, h tag]

theorem Stocks.congr {a' : Analyzers} (h : a.Stocks log) (hsame : a'.descriptor? = a.descriptor?) :
    a'.Stocks log := by
  rw [Stocks, hsame]
  exact h

end Analyzers

namespace Registry

variable {H : Type} [Host H] {r : Registry H} {log : List AnalyzerRecord}

theorem stocks_register (h : r.analyzers.Stocks log) (x : Registration) :
    (register x r).state.analyzers.Stocks (log ++ (admitted? x r).toList) := by
  rw [analyzers_register]
  cases hd : admitted? x r with
  | none => simpa using h
  | some d => exact h.put (of_admitted? hd).1

/-- The records that a module stores when it registers itself, up to its first fault. -/
def stored (script : Script) (r : Registry H) : List AnalyzerRecord :=
  (performed script r).flatMap fun e => (admitted? e.1 e.2).toList

theorem stocks_run (script : Script) (h : r.analyzers.Stocks log) :
    (run script r).state.analyzers.Stocks (log ++ stored script r) := by
  induction script generalizing r log with
  | nil =>
    have hsame : (run [] r).state = r := rfl
    rw [hsame]
    simpa [stored, performed] using h
  | cons step steps ih =>
    cases step with
    | fail fault =>
      have hsame : (run (.fail fault :: steps) r).state = r := rfl
      rw [hsame]
      simpa [stored, performed] using h
    | register x =>
      have hfirst := stocks_register h x
      rw [run_register, Op.state_andThen]
      cases hresult : (register x r).result with
      | error fault =>
        -- A registration that fails admits no record.
        simpa [stored, performed, hresult, admitted?] using hfirst
      | ok =>
        have hrest := ih hfirst
        rw [List.append_assoc] at hrest
        simpa [stored, performed, hresult] using hrest

end Registry

namespace Plugin

variable {H : Type} [Host H]

/-- A session, with the records that its registrations stored: registrations made directly, modules
that were opened, and other moves, which store nothing in a slot. -/
inductive Stocked (p : Plugin H) : List AnalyzerRecord → Plugin H → Prop
  | start : Stocked p [] p
  | register (x : Registration) {log : List AnalyzerRecord} {q : Plugin H} : Stocked p log q →
      q.phase = .registering →
      Stocked p (log ++ (Registry.admitted? x q.registry).toList)
        (onRegistry (Registry.register x) q).state
  | load (access : Access) (path : Path) {location : Location} {script : Script}
      {log : List AnalyzerRecord} {q : Plugin H} : Stocked p log q → q.phase = .registering →
      access.canonicalize path = .ok location → location ∉ q.modules.keys →
      access.openModule location = .ok script →
      Stocked p (log ++ Registry.stored script q.registry) (loadOnce access path q).state
  | otherwise {log : List AnalyzerRecord} {q s : Plugin H} {t : List Trace} : Stocked p log q →
      Move q t s → s.registry.analyzers.descriptor? = q.registry.analyzers.descriptor? →
      Stocked p log s

variable {p q s : Plugin H} {log : List AnalyzerRecord}

/-- Whatever else was done, the slots that are set are those of the stored records. -/
theorem Stocked.stocks (hp : p.registry.analyzers = .empty) (h : p.Stocked log q) :
    q.registry.analyzers.Stocks log := by
  induction h with
  | start =>
    rw [hp]
    exact Analyzers.stocks_empty
  | register x _ _ ih => exact Registry.stocks_register ih x
  | load access path _ _ hpath hnew hopen ih =>
    rw [loadOnce_opened hpath hnew hopen]
    exact Registry.stocks_run _ ih
  | otherwise _ _ hsame ih => exact ih.congr hsame

/-- A load stores what the module that it opens stores. -/
theorem Stocked.loadOnce (h : p.Stocked log q) (hphase : q.phase = .registering) (access : Access)
    (path : Path) : ∃ log, p.Stocked log (loadOnce access path q).state := by
  have hmove := Move.load access path hphase
  have hload := loading_loadOnce access path q
  generalize ho : Plugin.loadOnce access path q = o at hload hmove
  cases hload with
  | unresolved | duplicate | unopened => exact ⟨log, h.otherwise hmove rfl⟩
  | opened hpath hnew hopen => exact ⟨_, ho ▸ h.load access path hphase hpath hnew hopen⟩

end Plugin

namespace Plugin

variable {p q s : Plugin LocalHost} {t : List Trace} {log : List AnalyzerRecord}

theorem descriptor?_resolve (hq : q.registry.analyzers.Placed) (parsers : List Parser) :
    (Registry.resolve parsers q.registry).state.analyzers.descriptor? =
      q.registry.analyzers.descriptor? := by
  obtain ⟨done, hrenews, hstate⟩ := Registry.state_resolve parsers q.registry
  rw [hstate]
  exact congrArg Roster.descriptor? (Registry.roster_applyAll hq (hrenews hq))

/-- Every move adds the records that it stores. -/
theorem Stocked.move (hq : q.registry.analyzers.Placed) (h : p.Stocked log q) (hmove : Move q t s) :
    ∃ log, p.Stocked log s := by
  cases hmove with
  | log => exact ⟨log, h⟩
  | searchPath dir => exact ⟨log, h.otherwise (.searchPath dir q) rfl⟩
  | register x hphase => exact ⟨_, h.register x hphase⟩
  | load access path hphase => exact h.loadOnce hphase access path
  | placeholders hphase =>
    have hsilent := Registry.silent_assignPlaceholders q.registry
    refine ⟨log, h.otherwise (.placeholders hphase) ?_⟩
    exact congrArg (·.2.analyzers.descriptor?) hsilent
  | start hphase =>
    refine ⟨log, h.otherwise (.start hphase) ?_⟩
    change (startRuntime q.registry).state.analyzers.descriptor? = _
    rw [startRuntime_apply]
    cases q.registry.runtime.failures <;> rfl
  | stopResolving hphase hstarted hfault =>
    exact ⟨log, h.otherwise (.stopResolving hphase hstarted hfault) (descriptor?_resolve hq _)⟩
  | resolve hphase hstarted hok =>
    exact ⟨log, h.otherwise (.resolve hphase hstarted hok) (descriptor?_resolve hq _)⟩
  | toggle tag enable =>
    refine ⟨log, h.otherwise (.toggle tag enable q) ?_⟩
    have hswitch := Registry.switches_toggle tag enable q.registry
    exact congrArg (·.analyzers.descriptor?) hswitch
  | stop hdone => exact ⟨log, h.otherwise (.stop hdone) rfl⟩

/-- Calls in any order make such a session. -/
theorem stocked_after (hp : p.registry.analyzers.Placed) (calls : List Call) :
    ∃ log, p.Stocked log (p.after calls) := by
  have hall := Moves.keep
    (I := fun _ q => q.registry.analyzers.Placed ∧ ∃ log, p.Stocked log q) (t := [])
    (fun ⟨hq, log, h⟩ hmove => ⟨(hmove.leads hq).1, h.move hq hmove⟩)
    ⟨hp, [], .start⟩ (moves_calls calls p)
  exact hall.2

end Plugin

end TrafficAnalyzers
