/-! Finite maps kept as the list of their entries in increasing order of keys. -/
namespace TrafficAnalyzers

structure SortedMap (κ α : Type) where
  entries : List (κ × α)
  deriving DecidableEq, Repr

namespace SortedMap

variable {κ α : Type} [DecidableEq κ] [LT κ] [DecidableLT κ]

def empty : SortedMap κ α := ⟨[]⟩

def insertEntry (k : κ) (a : α) : List (κ × α) → List (κ × α)
  | [] => [(k, a)]
  | e :: es =>
    if k = e.1 then (k, a) :: es
    else if k < e.1 then (k, a) :: e :: es
    else e :: insertEntry k a es

/-- Gives `k` the value `a`, which takes the place of an earlier one. -/
def insert (m : SortedMap κ α) (k : κ) (a : α) : SortedMap κ α := ⟨insertEntry k a m.entries⟩

def find? (m : SortedMap κ α) (k : κ) : Option α := (m.entries.find? (·.1 = k)).map (·.2)

def contains (m : SortedMap κ α) (k : κ) : Bool := m.entries.any (·.1 = k)

def keys (m : SortedMap κ α) : List κ := m.entries.map (·.1)

def values (m : SortedMap κ α) : List α := m.entries.map (·.2)

def size (m : SortedMap κ α) : Nat := m.entries.length

@[simp] theorem find?_insert_self (m : SortedMap κ α) (k : κ) (a : α) :
    (m.insert k a).find? k = some a := by
  suffices h : ∀ es : List (κ × α), ((insertEntry k a es).find? (·.1 = k)).map (·.2) = some a from
    h m.entries
  intro es
  induction es with
  | nil => simp [insertEntry]
  | cons e es ih =>
    by_cases h : k = e.1
    · simp [insertEntry, h]
    · by_cases hlt : k < e.1
      · simp [insertEntry, h, hlt]
      · simp [insertEntry, h, hlt, Ne.symm h, ih]

theorem find?_insert_ne (m : SortedMap κ α) {k l : κ} (a : α) (h : l ≠ k) :
    (m.insert k a).find? l = m.find? l := by
  suffices hs : ∀ es : List (κ × α),
      (insertEntry k a es).find? (·.1 = l) = es.find? (·.1 = l) by
    simp [find?, insert, hs]
  intro es
  induction es with
  | nil => simp [insertEntry, Ne.symm h]
  | cons e es ih =>
    by_cases hk : k = e.1
    · have hl : ¬ e.1 = l := fun hh => h (hh ▸ hk.symm)
      simp [insertEntry, hk, hl]
    · by_cases hlt : k < e.1
      · simp [insertEntry, hk, hlt, Ne.symm h]
      · rw [insertEntry, if_neg hk, if_neg hlt, List.find?_cons, List.find?_cons, ih]

omit [LT κ] [DecidableLT κ] in
theorem contains_iff {m : SortedMap κ α} {k : κ} : m.contains k = true ↔ k ∈ m.keys := by
  simp [contains, keys]

theorem mem_keys_insert {m : SortedMap κ α} {k l : κ} (a : α) :
    l ∈ (m.insert k a).keys ↔ l = k ∨ l ∈ m.keys := by
  suffices hs : ∀ es : List (κ × α),
      l ∈ (insertEntry k a es).map (·.1) ↔ l = k ∨ l ∈ es.map (·.1) from hs m.entries
  intro es
  induction es with
  | nil => simp [insertEntry]
  | cons e es ih =>
    by_cases hk : k = e.1
    · simp [insertEntry, hk]
    · by_cases hlt : k < e.1
      · simp [insertEntry, hk, hlt]
      · rw [insertEntry, if_neg hk, if_neg hlt, List.map_cons, List.mem_cons, ih, List.map_cons,
          List.mem_cons, or_left_comm]

/-- A new key takes no other entry's place. -/
theorem perm_insert {m : SortedMap κ α} {k : κ} (h : k ∉ m.keys) (a : α) :
    (m.insert k a).entries.Perm ((k, a) :: m.entries) := by
  suffices hs : ∀ es : List (κ × α), k ∉ es.map (·.1) →
      (insertEntry k a es).Perm ((k, a) :: es) from hs m.entries h
  intro es hes
  induction es with
  | nil => exact .refl _
  | cons e es ih =>
    rw [List.map_cons, List.mem_cons, not_or] at hes
    by_cases hlt : k < e.1
    · rw [insertEntry, if_neg hes.1, if_pos hlt]
    · rw [insertEntry, if_neg hes.1, if_neg hlt]
      exact ((ih hes.2).cons e).trans (.swap _ _ _)

end SortedMap

end TrafficAnalyzers
