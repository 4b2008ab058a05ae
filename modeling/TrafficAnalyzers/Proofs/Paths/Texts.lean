import TrafficAnalyzers.Proofs.Paths.Children
import TrafficAnalyzers.Proofs.Text.Utf8
/-!
Which paths are texts. Main statement: those whose names are all UTF-8.
-/
namespace TrafficAnalyzers

theorem isSome_mapM {α β : Type} {f : α → Option β} {l : List α} :
    (l.mapM f).isSome = true ↔ ∀ a ∈ l, (f a).isSome = true := by
  induction l with
  | nil => simp
  | cons a l ih =>
    rw [List.mapM_cons, List.forall_mem_cons, ← ih]
    cases f a <;> cases l.mapM f <;> simp

namespace Text.Utf8

/-- All of the bytes is UTF-8. -/
def WellFormed (bytes : List UInt8) : Prop := (decode? bytes).isSome = true

instance (bytes : List UInt8) : Decidable (WellFormed bytes) :=
  inferInstanceAs (Decidable (_ = true))

theorem wellFormed_iff {bytes : List UInt8} :
    WellFormed bytes ↔ ∀ c ∈ pieces bytes, c.isSome = true := isSome_mapM

theorem wellFormed_nil : WellFormed [] := rfl

/-- An ASCII byte parts what is UTF-8. -/
theorem wellFormed_append_ascii {b : UInt8} (hb : b < 0x80) (as bs : List UInt8) :
    WellFormed (as ++ b :: bs) ↔ WellFormed as ∧ WellFormed bs := by
  simp only [wellFormed_iff, pieces, piecesFrom_append_ascii hb (s := .start) trivial,
    List.forall_mem_append, List.forall_mem_cons, Option.isSome_some, true_and]

/-- Bytes between slashes are UTF-8 if all are. -/
theorem wellFormed_fields (bytes : List UInt8) :
    WellFormed bytes ↔ ∀ piece ∈ fields slash bytes, WellFormed piece := by
  induction hn : bytes.length using Nat.strongRecOn generalizing bytes with
  | ind n ih =>
    by_cases hslash : slash ∈ bytes
    · obtain ⟨as, bs, rfl⟩ := List.append_of_mem hslash
      have hlength : (as ++ slash :: bs).length = as.length + bs.length + 1 := by
        rw [List.length_append, List.length_cons, Nat.add_assoc]
      rw [wellFormed_append_ascii (by decide), fields_append_sep, List.forall_mem_append,
        ih as.length (by omega) as rfl, ih bs.length (by omega) bs rfl]
    · rw [fields_of_not_mem hslash, List.forall_mem_singleton]

end Text.Utf8

open Text.Utf8 (WellFormed wellFormed_append_ascii wellFormed_fields)

namespace Path

theorem isSome_text? (p : Path) : p.text?.isSome = true ↔ WellFormed p.bytes := by
  rw [text?, Option.isSome_map]
  rfl

/-- A path is a text exactly if all its names are. -/
theorem isSome_text?_iff (p : Path) :
    p.text?.isSome = true ↔ ∀ name ∈ p.parts, WellFormed name := by
  rw [isSome_text?, wellFormed_fields]
  refine ⟨fun h name hname => h name (List.mem_of_mem_filter hname), fun h piece hpiece => ?_⟩
  -- What is not among the names is empty or a single dot.
  by_cases hname : piece ∈ p.parts
  · exact h piece hname
  · have hskipped : piece = [] ∨ piece = [dot] := by
      by_contra hnot
      rw [not_or] at hnot
      exact hname (List.mem_filter.mpr ⟨hpiece, by simp [hnot]⟩)
    rcases hskipped with rfl | rfl <;> decide

end Path

namespace Location

/-- The names of a location, each after a slash. -/
theorem wellFormed_names (names : List Name) :
    WellFormed (names.flatMap (slash :: ·)) ↔ ∀ name ∈ names, WellFormed name := by
  induction names with
  | nil => simp [Text.Utf8.wellFormed_nil]
  | cons name names ih =>
    have hfirst (bs : List UInt8) : WellFormed (slash :: bs) ↔ WellFormed bs := by
      have h := wellFormed_append_ascii (b := slash) (by decide) [] bs
      exact h.trans (and_iff_right Text.Utf8.wellFormed_nil)
    rw [List.flatMap_cons, List.cons_append, hfirst, List.forall_mem_cons]
    cases names with
    | nil => simp
    | cons name' names =>
      rw [List.flatMap_cons, List.cons_append, wellFormed_append_ascii (by decide), ← ih,
        List.flatMap_cons, List.cons_append, hfirst]

theorem isSome_text?_path (l : Location) :
    l.path.text?.isSome = true ↔ ∀ name ∈ l.names, WellFormed name := by
  rw [Path.isSome_text?, path, ← wellFormed_names]
  split
  next hroot =>
    rw [List.isEmpty_iff.mp hroot]
    exact iff_of_true (by decide) (by decide)
  next => rfl

end Location

end TrafficAnalyzers
