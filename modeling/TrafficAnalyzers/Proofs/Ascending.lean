import Mathlib.Order.Defs.Unbundled
import TrafficAnalyzers.SortedMap
/-!
Maps whose keys ascend, as those do that entries were only ever inserted into. Main statement: to
insert an entry that is there changes nothing.
-/
namespace TrafficAnalyzers.SortedMap

variable {κ α : Type} [DecidableEq κ] [LT κ] [DecidableLT κ] {m : SortedMap κ α} {k : κ} {a : α}

/-- Every key comes before all later ones. -/
def Ascending (m : SortedMap κ α) : Prop := m.keys.Pairwise (· < ·)

omit [DecidableEq κ] [DecidableLT κ] in
theorem ascending_empty : (empty : SortedMap κ α).Ascending := List.Pairwise.nil

variable [IsStrictTotalOrder κ (· < ·)]

theorem Ascending.insert (h : m.Ascending) (k : κ) (a : α) : (m.insert k a).Ascending := by
  suffices hs : ∀ es : List (κ × α), (es.map (·.1)).Pairwise (· < ·) →
      ((insertEntry k a es).map (·.1)).Pairwise (· < ·) from hs m.entries h
  intro es hes
  induction es with
  | nil => exact List.pairwise_singleton _ k
  | cons e es ih =>
    have hall := hes
    rw [List.map_cons, List.pairwise_cons] at hes
    obtain ⟨hfirst, hrest⟩ := hes
    rw [insertEntry]
    by_cases hk : k = e.1
    · rwa [if_pos hk, List.map_cons, hk]
    by_cases hlt : k < e.1
    · rw [if_neg hk, if_pos hlt, List.map_cons, List.pairwise_cons]
      refine ⟨fun l hl => ?_, hall⟩
      rcases List.mem_cons.mp hl with rfl | hl
      · exact hlt
      · exact IsTrans.trans _ _ _ hlt (hfirst l hl)
    · rw [if_neg hk, if_neg hlt, List.map_cons, List.pairwise_cons]
      refine ⟨fun l hl => ?_, ih hrest⟩
      rcases (mem_keys_insert (m := ⟨es⟩) a).mp hl with rfl | hl
      · exact Decidable.byContradiction fun hge =>
          hk (Std.Trichotomous.trichotomous (r := (· < ·)) _ _ hlt hge)
      · exact hfirst l hl

/-- To insert an entry that is there changes nothing. -/
theorem Ascending.insert_eq_self (h : m.Ascending) (he : (k, a) ∈ m.entries) : m.insert k a = m := by
  suffices hs : ∀ es : List (κ × α), (es.map (·.1)).Pairwise (· < ·) → (k, a) ∈ es →
      insertEntry k a es = es from congrArg SortedMap.mk (hs m.entries h he)
  intro es hes he
  induction es with
  | nil => contradiction
  | cons e es ih =>
    rw [List.map_cons, List.pairwise_cons] at hes
    rw [insertEntry]
    rcases List.mem_cons.mp he with rfl | he
    · rw [if_pos rfl]
    · have hlt := hes.1 k (List.mem_map_of_mem he)
      have hne : k ≠ e.1 := fun hk => Std.Irrefl.irrefl (r := (· < ·)) _ (hk ▸ hlt)
      have hnot : ¬k < e.1 := fun hk =>
        Std.Irrefl.irrefl (r := (· < ·)) _ (IsTrans.trans _ _ _ hk hlt)
      rw [if_neg hne, if_neg hnot, ih hes.2 he]

end TrafficAnalyzers.SortedMap
