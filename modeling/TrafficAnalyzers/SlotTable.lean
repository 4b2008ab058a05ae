/-!
Tables indexed by the numbers that a host gives out. A table grows on demand; the slots of numbers
that belong to others stay unset, and slot zero always does.
-/
namespace TrafficAnalyzers

/-- A record that is kept at a number of its own. -/
class Slotted (δ : Type) where
  id : δ → UInt32

structure SlotTable (δ : Type) where
  slots : Array (Option δ)
  deriving DecidableEq, Repr

namespace SlotTable

variable {δ : Type}

def empty : SlotTable δ := ⟨#[]⟩

/-- At least `n` slots, the new ones unset. -/
def grown (t : SlotTable δ) (n : Nat) : Array (Option δ) :=
  t.slots ++ Array.replicate (n - t.slots.size) none

/-- Puts `d` into the slot of its number; number zero only makes room. -/
def insert [Slotted δ] (t : SlotTable δ) (d : δ) : SlotTable δ :=
  let i := (Slotted.id d).toNat
  ⟨(t.grown (i + 1)).setIfInBounds i (if i = 0 then none else some d)⟩

def get? (t : SlotTable δ) (id : UInt32) : Option δ := t.slots[id.toNat]?.join

/-- The number of slots, set or not. -/
def capacity (t : SlotTable δ) : Nat := t.slots.size

/-- The records of the set slots, by ascending number. -/
def toList (t : SlotTable δ) : List δ := t.slots.toList.filterMap id

def isEmpty (t : SlotTable δ) : Bool := t.toList.isEmpty

/-- Applies `f` to every set slot. -/
def map (t : SlotTable δ) (f : δ → δ) : SlotTable δ := ⟨t.slots.map (·.map f)⟩

@[simp] theorem get?_empty (id : UInt32) : (empty : SlotTable δ).get? id = none := by
  simp [get?, empty]

@[simp] theorem capacity_insert [Slotted δ] (t : SlotTable δ) (d : δ) :
    (t.insert d).capacity = max t.capacity ((Slotted.id d).toNat + 1) := by
  simp [insert, capacity, grown]
  omega

theorem slots_grown (t : SlotTable δ) (n i : Nat) : (t.grown n)[i]?.join = t.slots[i]?.join := by
  simp only [grown, Array.getElem?_append]
  split
  · rfl
  · rename_i h
    rw [Array.getElem?_eq_none (Nat.not_lt.1 h)]
    simp only [Array.getElem?_replicate]
    split <;> rfl

/-- A record is found at its number, unless that is zero. -/
theorem get?_insert [Slotted δ] (t : SlotTable δ) (d : δ) (id : UInt32) :
    (t.insert d).get? id =
      if id = Slotted.id d then (if id = 0 then none else some d) else t.get? id := by
  have hsize : (Slotted.id d).toNat < (t.grown ((Slotted.id d).toNat + 1)).size := by
    simp only [grown, Array.size_append, Array.size_replicate]; omega
  unfold get? insert
  simp only [Array.getElem?_setIfInBounds]
  by_cases h : id = Slotted.id d
  · subst h
    by_cases h0 : Slotted.id d = 0
    · have hroom : 0 < (t.grown 1).size := by
        simp only [grown, Array.size_append, Array.size_replicate]; omega
      simp [h0, hroom]
    · have h0' : (Slotted.id d).toNat ≠ 0 := fun hz => h0 (UInt32.toNat_inj.1 (by simpa using hz))
      simp [hsize, h0, h0']
  · have hne : ¬ (Slotted.id d).toNat = id.toNat := fun hz => h (UInt32.toNat_inj.1 hz.symm)
    simp [h, hne, slots_grown]

end SlotTable

end TrafficAnalyzers
