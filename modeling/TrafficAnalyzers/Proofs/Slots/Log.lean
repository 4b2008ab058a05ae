import Mathlib.Data.List.Induction
import TrafficAnalyzers.Proofs.Slots
/-!
Tables that records were inserted into one after the other. Main statement: such a table is the map
from numbers to the latest record of each number.
-/
namespace TrafficAnalyzers.SlotTable

variable {δ : Type} [Slotted δ] {log : List δ} {t : SlotTable δ} {d : δ} {id : UInt32}

/-- The latest record of a number. -/
def latest? (log : List δ) (id : UInt32) : Option δ := (log.filter (Slotted.id · = id)).getLast?

theorem latest?_concat (log : List δ) (d : δ) (id : UInt32) :
    latest? (log ++ [d]) id = if id = Slotted.id d then some d else latest? log id := by
  rw [latest?, List.filter_append]
  by_cases h : id = Slotted.id d
  · subst h
    simp
  · simp [h, Ne.symm h, latest?]

theorem id_of_latest? (h : latest? log id = some d) : d ∈ log ∧ Slotted.id d = id := by
  simpa using List.mem_of_getLast? h

theorem latest?_ne_none (h : d ∈ log) : latest? log (Slotted.id d) ≠ none := by
  rw [latest?, Ne, List.getLast?_eq_none_iff, List.filter_eq_nil_iff]
  exact fun hnot => hnot d h (by simp)

/-- The number of slots that the records of a log take. -/
inductive Room : List δ → Nat → Prop
  | none : Room [] 0
  | upTo {log : List δ} (d : δ) : d ∈ log → (∀ e ∈ log, Slotted.id e ≤ Slotted.id d) →
      Room log ((Slotted.id d).toNat + 1)

/-- A record takes no more room than the largest one if its number is not larger. -/
theorem Room.concat {n : Nat} (h : Room log n) (d : δ) :
    Room (log ++ [d]) (max n ((Slotted.id d).toNat + 1)) := by
  have hlast : d ∈ log ++ [d] := by simp
  cases h with
  | none =>
    rw [Nat.zero_max]
    exact .upTo d hlast (by simp)
  | upTo m hm hmax =>
    rcases Nat.le_total (Slotted.id m).toNat (Slotted.id d).toNat with hle | hle
    · rw [Nat.max_eq_right (Nat.succ_le_succ hle)]
      refine .upTo d hlast fun e he => ?_
      rcases List.mem_append.mp he with he | he
      · exact UInt32.le_trans (hmax e he) (UInt32.le_iff_toNat_le.mpr hle)
      · rw [List.mem_singleton.mp he]
        exact UInt32.le_refl _
    · rw [Nat.max_eq_left (Nat.succ_le_succ hle)]
      refine .upTo m (List.mem_append_left _ hm) fun e he => ?_
      rcases List.mem_append.mp he with he | he
      · exact hmax e he
      · rw [List.mem_singleton.mp he]
        exact UInt32.le_iff_toNat_le.mpr hle

/-- The table is the map from numbers to the latest record of each, and has slots up to the largest
number only. -/
structure Reflects (log : List δ) (t : SlotTable δ) : Prop where
  get? : ∀ id, t.get? id = latest? log id
  ascending : t.toList.Pairwise fun a b => Slotted.id a < Slotted.id b
  mem_toList : ∀ d, d ∈ t.toList ↔ latest? log (Slotted.id d) = some d
  placed : t.Placed
  room : Room log t.capacity
  isEmpty : t.isEmpty = true ↔ log = []

theorem reflects_of_get? (hget : ∀ id, t.get? id = latest? log id) (ht : t.Placed)
    (hroom : Room log t.capacity) : Reflects log t := by
  have hmem (d : δ) : d ∈ t.toList ↔ latest? log (Slotted.id d) = some d := by
    rw [ht.mem_toList, hget]
  refine ⟨hget, ht.toList_sorted, hmem, ht, hroom, ?_⟩
  rw [isEmpty, List.isEmpty_iff]
  constructor
  · intro hnone
    rw [List.eq_nil_iff_forall_not_mem]
    intro d hd
    obtain ⟨e, he⟩ := Option.ne_none_iff_exists'.mp (latest?_ne_none hd)
    obtain ⟨-, hid⟩ := id_of_latest? he
    exact List.eq_nil_iff_forall_not_mem.mp hnone e ((hmem e).mpr (hid ▸ he))
  · rintro rfl
    exact List.eq_nil_iff_forall_not_mem.mpr fun d hd => nomatch (hmem d).mp hd

theorem reflects_empty : Reflects ([] : List δ) empty :=
  reflects_of_get? get?_empty placed_empty .none

theorem Reflects.insert (h : Reflects log t) (h0 : Slotted.id d ≠ 0) :
    Reflects (log ++ [d]) (t.insert d) := by
  refine reflects_of_get? (fun id => ?_) (h.placed.insert d) ?_
  · rw [get?_insert, latest?_concat, h.get?]
    split
    next hid => rw [if_neg (hid ▸ h0)]
    next => rfl
  · rw [capacity_insert]
    exact h.room.concat d

section Filed

variable {α : Type} {entries : List α} {f : α → Option δ} {a : α}

/-- An entry of another kind leaves the table as it is. -/
theorem Reflects.skip (h : Reflects (entries.filterMap f) t) (ha : f a = none) :
    Reflects ((entries ++ [a]).filterMap f) t := by
  rw [List.filterMap_append, List.filterMap_cons_none ha, List.filterMap_nil, List.append_nil]
  exact h

theorem Reflects.store (h : Reflects (entries.filterMap f) t) (ha : f a = some d)
    (h0 : Slotted.id d ≠ 0) : Reflects ((entries ++ [a]).filterMap f) (t.insert d) := by
  rw [List.filterMap_append, List.filterMap_cons_some ha, List.filterMap_nil]
  exact h.insert h0

end Filed

end TrafficAnalyzers.SlotTable
