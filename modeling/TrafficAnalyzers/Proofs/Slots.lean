import TrafficAnalyzers.SlotTable
/-!
Tables whose records all stand at their own numbers, as records that were only ever inserted do.
Such a table lists its records by strictly increasing number, each found again by its number.
-/
namespace TrafficAnalyzers.SlotTable

variable {δ α : Type} [Slotted δ]

/-- Every record stands in the slot of its own number, and none in slot zero. -/
def Placed (t : SlotTable δ) : Prop :=
  ∀ i d, t.slots[i]? = some (some d) → (Slotted.id d).toNat = i ∧ i ≠ 0

theorem placed_empty : (empty : SlotTable δ).Placed := by
  intro i d h
  simp [empty] at h

omit [Slotted δ] in
theorem get?_eq_some {t : SlotTable δ} {id : UInt32} {d : δ} :
    t.get? id = some d ↔ t.slots[id.toNat]? = some (some d) := by
  simp [get?, Option.join_eq_some_iff]

theorem Placed.insert {t : SlotTable δ} (ht : t.Placed) (d : δ) : (t.insert d).Placed := by
  intro i e h
  simp only [SlotTable.insert, Array.getElem?_setIfInBounds] at h
  split at h
  next hi =>
    split at h
    · split at h
      · simp at h
      · next h0 =>
        obtain rfl : d = e := by simpa using h
        exact ⟨hi, by omega⟩
    · simp at h
  next =>
    have hold := slots_grown t ((Slotted.id d).toNat + 1) i
    rw [h] at hold
    exact ht i e (Option.join_eq_some_iff.mp hold.symm)

theorem Placed.id_eq {t : SlotTable δ} (ht : t.Placed) {id : UInt32} {d : δ}
    (h : t.get? id = some d) : Slotted.id d = id ∧ id ≠ 0 := by
  obtain ⟨hid, h0⟩ := ht _ _ (get?_eq_some.mp h)
  refine ⟨UInt32.toNat_inj.mp hid, ?_⟩
  rintro rfl
  exact h0 rfl

theorem Placed.mem_toList {t : SlotTable δ} (ht : t.Placed) {d : δ} :
    d ∈ t.toList ↔ t.get? (Slotted.id d) = some d := by
  rw [get?_eq_some]
  simp only [toList, List.mem_filterMap, Array.mem_toList_iff, Array.mem_iff_getElem?]
  constructor
  · rintro ⟨slot, ⟨i, hi⟩, rfl⟩
    rwa [(ht i d hi).1]
  · intro h
    exact ⟨some d, ⟨_, h⟩, rfl⟩

/-- The set slots are listed by strictly increasing number. -/
theorem Placed.toList_sorted {t : SlotTable δ} (ht : t.Placed) :
    t.toList.Pairwise fun a b => Slotted.id a < Slotted.id b := by
  rw [toList, List.pairwise_filterMap, List.pairwise_iff_getElem]
  intro i j hi hj hij a ha b hb
  simp only [Array.getElem_toList] at ha hb
  have hai := ht i a (Array.getElem?_eq_some_iff.mpr ⟨hi, ha⟩)
  have hbj := ht j b (Array.getElem?_eq_some_iff.mpr ⟨hj, hb⟩)
  rw [UInt32.lt_iff_toNat_lt, hai.1, hbj.1]
  exact hij

/-- A record with a greater number than all others comes last. -/
theorem Placed.toList_insert_last {t : SlotTable δ} (ht : t.Placed) {d : δ}
    (hlast : ∀ e ∈ t.toList, Slotted.id e < Slotted.id d) (h0 : Slotted.id d ≠ 0) :
    (t.insert d).toList = t.toList ++ [d] := by
  have hnew := ht.insert d
  have hsorted : (t.toList ++ [d]).Pairwise fun a b => Slotted.id a < Slotted.id b := by
    rw [List.pairwise_append]
    refine ⟨ht.toList_sorted, List.pairwise_singleton _ _, fun a ha b hb => ?_⟩
    rw [List.mem_singleton.mp hb]
    exact hlast a ha
  have hnodup {l : List δ} (hl : l.Pairwise fun a b => Slotted.id a < Slotted.id b) : l.Nodup :=
    List.Pairwise.imp (fun {a b} hab => by rintro rfl; exact UInt32.lt_irrefl _ hab) hl
  have hperm : (t.insert d).toList.Perm (t.toList ++ [d]) := by
    refine (List.perm_ext_iff_of_nodup (hnodup hnew.toList_sorted) (hnodup hsorted)).mpr fun e => ?_
    rw [hnew.mem_toList, List.mem_append, List.mem_singleton, get?_insert]
    split
    next he =>
      rw [if_neg (he ▸ h0)]
      constructor
      · exact fun hd => .inr (Option.some.inj hd).symm
      · rintro (hmem | rfl)
        · exact absurd (he ▸ hlast e hmem) (UInt32.lt_irrefl _)
        · rfl
    next he =>
      rw [ht.mem_toList]
      refine ⟨.inl, fun h => h.resolve_right ?_⟩
      rintro rfl
      exact he rfl
  refine hperm.eq_of_pairwise (fun a b _ _ hab hba => ?_) hnew.toList_sorted hsorted
  exact absurd (UInt32.lt_trans hab hba) (UInt32.lt_irrefl _)

/-- The last record that was inserted under a number stays. -/
theorem insert_insert (t : SlotTable δ) {d e : δ} (h : Slotted.id d = Slotted.id e) :
    (t.insert d).insert e = t.insert e := by
  have hsize : ¬ (t.grown ((Slotted.id e).toNat + 1)).size < (Slotted.id e).toNat + 1 := by
    simp only [grown, Array.size_append, Array.size_replicate]
    omega
  have hgrown (slot : Option δ) :
      (⟨(t.grown ((Slotted.id e).toNat + 1)).setIfInBounds (Slotted.id e).toNat slot⟩ :
        SlotTable δ).grown ((Slotted.id e).toNat + 1) =
      (t.grown ((Slotted.id e).toNat + 1)).setIfInBounds (Slotted.id e).toNat slot := by
    rw [grown, Array.size_setIfInBounds, Nat.sub_eq_zero_of_le (Nat.not_lt.mp hsize)]
    simp
  simp only [insert, h, hgrown, Array.setIfInBounds_setIfInBounds]

omit [Slotted δ] in
theorem toList_map (t : SlotTable δ) (f : δ → δ) : (t.map f).toList = t.toList.map f := by
  simp only [toList, map, Array.toList_map, List.filterMap_map, List.map_filterMap]
  rfl

omit [Slotted δ] in
theorem get?_map (t : SlotTable δ) (f : δ → δ) (id : UInt32) :
    (t.map f).get? id = (t.get? id).map f := by
  simp only [get?, map, Array.getElem?_map]
  cases t.slots[id.toNat]? <;> rfl

omit [Slotted δ] in
theorem map_map (t : SlotTable δ) (f g : δ → δ) : (t.map f).map g = t.map (g ∘ f) := by
  simp [map, Array.map_map, Function.comp_def]

omit [Slotted δ] in
/-- Tables that agree on what `f` keeps of their records set the same slots. -/
theorem exists_get?_of_map_eq {t u : SlotTable δ} {f : δ → δ} (h : t.map f = u.map f) {id : UInt32}
    {d : δ} (hd : t.get? id = some d) : ∃ e, u.get? id = some e ∧ f d = f e := by
  have hget := get?_map u f id
  rw [← h, get?_map, hd, Option.map_some] at hget
  obtain ⟨e, he, hfe⟩ := Option.map_eq_some_iff.mp hget.symm
  exact ⟨e, he, hfe.symm⟩

omit [Slotted δ] in
theorem flatMap_toList_of_map_eq {t u : SlotTable δ} {f : δ → δ} (h : t.map f = u.map f)
    {g : δ → List α} (hg : ∀ d, g (f d) = g d) : t.toList.flatMap g = u.toList.flatMap g := by
  have hkept (t : SlotTable δ) : (t.map f).toList.flatMap g = t.toList.flatMap g := by
    simp only [toList_map, List.flatMap_map, hg]
  rw [← hkept t, h, hkept u]

theorem Placed.map {t : SlotTable δ} (ht : t.Placed) {f : δ → δ}
    (hf : ∀ d, Slotted.id (f d) = Slotted.id d) : (t.map f).Placed := by
  intro i d h
  simp only [SlotTable.map, Array.getElem?_map, Option.map_eq_some_iff] at h
  obtain ⟨slot, hslot, e, rfl, rfl⟩ := h
  rw [hf]
  exact ht i e hslot

theorem Placed.map_congr {t : SlotTable δ} (ht : t.Placed) {f g : δ → δ}
    (h : ∀ d, t.get? (Slotted.id d) = some d → f d = g d) : t.map f = t.map g := by
  simp only [SlotTable.map, mk.injEq]
  apply Array.map_congr_left
  intro slot hslot
  cases slot with
  | none => rfl
  | some d =>
    obtain ⟨i, hi⟩ := Array.mem_iff_getElem?.mp hslot
    have hd : t.get? (Slotted.id d) = some d := by
      rw [get?_eq_some, (ht i d hi).1, hi]
    exact congrArg some (h d hd)

/-- A record that takes the place of another in its slot changes that slot only. -/
theorem Placed.insert_eq_map {t : SlotTable δ} (ht : t.Placed) {old d : δ}
    (hold : t.get? (Slotted.id d) = some old) :
    t.insert d = t.map fun e => if Slotted.id e = Slotted.id d then d else e := by
  have hslot := get?_eq_some.mp hold
  obtain ⟨hsize, -⟩ := Array.getElem?_eq_some_iff.mp hslot
  have h0 := (ht _ _ hslot).2
  have hgrown : t.grown ((Slotted.id d).toNat + 1) = t.slots := by
    simp [grown, Nat.sub_eq_zero_of_le hsize]
  simp only [SlotTable.map, mk.injEq, SlotTable.insert, hgrown]
  apply Array.ext_getElem?
  intro i
  simp only [Array.getElem?_setIfInBounds, Array.getElem?_map, h0, ↓reduceIte]
  split
  next hi =>
    subst hi
    have hid := UInt32.toNat_inj.mp (ht _ _ hslot).1
    rw [hslot]
    simp [hid]
  next hi =>
    cases he : t.slots[i]? with
    | none => rfl
    | some slot =>
      cases slot with
      | none => rfl
      | some e =>
        have hne : Slotted.id e ≠ Slotted.id d := fun h => hi (by rw [← h, (ht i e he).1])
        simp [hne]

/-- What the new record shares with the old one stays as it was. -/
theorem Placed.map_insert {t : SlotTable δ} (ht : t.Placed) {old d : δ}
    (hold : t.get? (Slotted.id d) = some old) {f : δ → δ} (hf : f d = f old) :
    (t.insert d).map f = t.map f := by
  rw [ht.insert_eq_map hold, map_map]
  apply ht.map_congr
  intro e he
  by_cases hid : Slotted.id e = Slotted.id d
  · rw [hid, hold] at he
    simp [hid, hf, Option.some.inj he]
  · simp [hid]

/-- What inserting renewed records one after the other does to one of the records. -/
def renew (f : δ → δ) (l : List δ) (e : δ) : δ :=
  l.foldl (fun e d => if Slotted.id e = Slotted.id d then f d else e) e

theorem renew_of_not_mem {f : δ → δ} {l : List δ} {e : δ}
    (h : ∀ d ∈ l, Slotted.id e ≠ Slotted.id d) : renew f l e = e := by
  induction l with
  | nil => rfl
  | cons d l ih =>
    rw [renew, List.foldl_cons, if_neg (h d List.mem_cons_self)]
    exact ih fun b hb => h b (List.mem_cons_of_mem d hb)

section Renew

variable {f : δ → δ} (hf : ∀ d, Slotted.id (f d) = Slotted.id d)

include hf

theorem renew_of_mem {l : List δ} (hl : l.Pairwise fun a b => Slotted.id a ≠ Slotted.id b) {e : δ}
    (he : e ∈ l) : renew f l e = f e := by
  induction l with
  | nil => contradiction
  | cons d l ih =>
    obtain ⟨hd, hl⟩ := List.pairwise_cons.mp hl
    rcases List.mem_cons.mp he with rfl | he
    · rw [renew, List.foldl_cons, if_pos rfl]
      exact renew_of_not_mem fun b hb => hf e ▸ hd b hb
    · rw [renew, List.foldl_cons, if_neg (hd e he).symm]
      exact ih hl he

theorem Placed.foldl_insert {t : SlotTable δ} (ht : t.Placed) {l : List δ}
    (hl : ∀ d ∈ l, ∃ old, t.get? (Slotted.id d) = some old) :
    l.foldl (fun t d => t.insert (f d)) t = t.map (renew f l) := by
  induction l generalizing t with
  | nil =>
    have hid : renew f ([] : List δ) = id := rfl
    simp [hid, SlotTable.map]
  | cons d l ih =>
    obtain ⟨old, hold⟩ := hl d List.mem_cons_self
    have hmap := ht.insert_eq_map (d := f d) ((hf d).symm ▸ hold)
    have hid (e : δ) : Slotted.id (if Slotted.id e = Slotted.id (f d) then f d else e) =
        Slotted.id e := by
      split
      next h => exact h.symm
      next => rfl
    rw [List.foldl_cons, hmap, ih (ht.map hid), map_map]
    · simp only [hf]
      rfl
    · intro e he
      obtain ⟨old, hold⟩ := hl e (List.mem_cons_of_mem d he)
      exact ⟨_, by rw [get?_map, hold, Option.map_some]⟩

/-- Renewing all records one after the other renews the table. -/
theorem Placed.foldl_insert_toList {t : SlotTable δ} (ht : t.Placed) :
    t.toList.foldl (fun t d => t.insert (f d)) t = t.map f := by
  have hne : t.toList.Pairwise fun a b => Slotted.id a ≠ Slotted.id b :=
    ht.toList_sorted.imp fun h => UInt32.ne_of_lt h
  rw [ht.foldl_insert hf fun d hd => ⟨d, ht.mem_toList.mp hd⟩]
  exact ht.map_congr fun d hd => renew_of_mem hf hne (ht.mem_toList.mpr hd)

end Renew

end TrafficAnalyzers.SlotTable
