import TrafficAnalyzers.Proofs.Session
/-!
Sessions in which others take turns with the plugin: whoever holds it may change its host between
two calls, and the parser runtime may come to fail. Main statement: what moves keep, and these
changes too, holds after all turns.
-/
namespace TrafficAnalyzers

/-- What happens to a plugin next. -/
inductive Turn where
  | call (call : Call)
  /-- Others change the host. -/
  | changeHost (f : LocalHost → LocalHost)
  /-- The failures of the next attempts to start the runtime are laid down anew. -/
  | refuse (failures : List RuntimeFailure)

namespace Turn

def op : Turn → Op (Plugin LocalHost) Unit
  | call c => c.op
  | changeHost f => Plugin.onRegistry (Registry.changeHost f)
  | refuse failures => .update fun p =>
    { p with registry := { p.registry with runtime := { p.registry.runtime with failures } } }

end Turn

namespace Plugin

/-- The plugin after turns, in their order. -/
def live : List Turn → Plugin LocalHost → Plugin LocalHost
  | [], p => p
  | turn :: turns, p => live turns (turn.op p).state

/-- The traces that turns leave. -/
def history : List Turn → Plugin LocalHost → List Trace
  | [], _ => []
  | turn :: turns, p => (turn.op p).trace ++ history turns (turn.op p).state

/-- What every move keeps together with the traces so far, and every change that others make, all
turns keep. -/
theorem keep_turns {I : List Trace → Plugin LocalHost → Prop}
    (hmove : ∀ {t p u q}, I t p → Move p u q → I (t ++ u) q)
    (hhost : ∀ {t p} f, I t p → I t (onRegistry (Registry.changeHost f) p).state)
    (hrefuse : ∀ {t p} failures, I t p → I t ((Turn.refuse failures).op p).state)
    {t : List Trace} {p : Plugin LocalHost} (hp : I t p) (turns : List Turn) :
    I (t ++ p.history turns) (p.live turns) := by
  induction turns generalizing t p with
  | nil =>
    rw [history, List.append_nil]
    exact hp
  | cons turn turns ih =>
    rw [history, ← List.append_assoc]
    apply ih
    cases turn with
    | call call => exact Moves.keep hmove hp (call.moves p)
    | changeHost f =>
      have h := hhost f hp
      rwa [← List.append_nil t] at h
    | refuse failures =>
      have h := hrefuse failures hp
      rwa [← List.append_nil t] at h

/-- Calls alone make moves only. -/
theorem moves_calls (calls : List Call) (p : Plugin LocalHost) :
    Moves p (p.history (calls.map .call)) (p.after calls) := by
  induction calls generalizing p with
  | nil => exact .nil p
  | cons call calls ih =>
    have hcall := call.moves p
    rw [Op.YieldsAt, call.state_op] at hcall
    rw [List.map_cons, history]
    change Moves p _ (after calls (call.leave p))
    refine hcall.trans ?_
    change Moves _ (history _ (call.op p).state) _
    rw [call.state_op]
    exact ih (call.leave p)

end Plugin

end TrafficAnalyzers
