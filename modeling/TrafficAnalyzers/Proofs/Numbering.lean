import TrafficAnalyzers.Proofs.Roster.Invariant
/-!
Numbers that are given out in turn, kind by kind, to components that may have waited for them. Main
statement: as long as no kind runs out of numbers, a component has a tag exactly if it was the one
that got a number of that kind in that turn.
-/
namespace TrafficAnalyzers

/-- A number that was given out: its kind, and the place of the component that got it. -/
structure Grant where
  kind : Kind
  place : Nat
  deriving DecidableEq, Repr

/-- The places of the components that got a number of the kind, in the order in which they did. -/
def recipients (kind : Kind) (log : List Grant) : List Nat :=
  (log.filter (·.kind = kind)).map (·.place)

/-- The component got the number of the tag when it was that number's turn. -/
def Received (log : List Grant) (place : Nat) (tag : Tag) : Prop :=
  ∃ turn, tag.id.toNat = turn + 1 ∧ (recipients tag.kind log)[turn]? = some place

theorem getElem?_concat_eq_some {α : Type} {l : List α} {a b : α} {i : Nat} :
    (l ++ [a])[i]? = some b ↔ l[i]? = some b ∨ i = l.length ∧ a = b := by
  rcases Nat.lt_trichotomy i l.length with hlt | rfl | hgt
  · rw [List.getElem?_append_left hlt]
    exact (or_iff_left fun h => absurd h.1 (Nat.ne_of_lt hlt)).symm
  · simp
  · rw [List.getElem?_eq_none (by simp; omega), List.getElem?_eq_none (by omega)]
    simp [Nat.ne_of_gt hgt]

theorem recipients_concat (kind : Kind) (log : List Grant) (g : Grant) :
    recipients kind (log ++ [g]) =
      if g.kind = kind then recipients kind log ++ [g.place] else recipients kind log := by
  by_cases h : g.kind = kind <;> simp [recipients, h]

theorem length_recipients_append (kind : Kind) (log new : List Grant) :
    (recipients kind (log ++ new)).length =
      (recipients kind log).length + (recipients kind new).length := by
  simp [recipients]

theorem received_concat {log : List Grant} {g : Grant} {place : Nat} {tag : Tag} :
    Received (log ++ [g]) place tag ↔ Received log place tag ∨
      g = ⟨tag.kind, place⟩ ∧ tag.id.toNat = (recipients tag.kind log).length + 1 := by
  obtain ⟨kind, i⟩ := g
  rw [Received, recipients_concat]
  by_cases hkind : kind = tag.kind
  · simp only [hkind, if_true, getElem?_concat_eq_some, Grant.mk.injEq, true_and]
    constructor
    · rintro ⟨turn, hid, hold | ⟨rfl, hi⟩⟩
      · exact .inl ⟨turn, hid, hold⟩
      · exact .inr ⟨hi, hid⟩
    · rintro (⟨turn, hid, hold⟩ | ⟨hi, hid⟩)
      · exact ⟨turn, hid, .inl hold⟩
      · exact ⟨_, hid, .inr ⟨rfl, hi⟩⟩
  · simp [hkind, Received]

/-- Components with the tags that they have got so far, and the next number of each kind. -/
structure Numbering where
  cards : List (Component × Option Tag)
  next : Kind → UInt32

namespace Numbering

def tag? (n : Numbering) (place : Nat) : Option Tag := n.cards[place]?.bind (·.2)

/-- A component comes, without a tag. -/
def enter (component : Component) (n : Numbering) : Numbering :=
  { n with cards := n.cards ++ [(component, none)] }

/-- The next number of a kind goes to a component. -/
def grant (kind : Kind) (place : Nat) (n : Numbering) : Numbering where
  cards := n.cards.modify place fun card => (card.1, some ⟨kind, n.next kind⟩)
  next := Function.update n.next kind (n.next kind + 1)

/-- A component comes, or one that has no tag yet gets the next number of its kind. -/
inductive Step : Numbering → List Grant → Numbering → Prop
  | enter (component : Component) (n : Numbering) : Step n [] (n.enter component)
  | grant (place : Nat) (component : Component) {n : Numbering}
      (h : n.cards[place]? = some (component, none)) :
      Step n [⟨component.entry.kind, place⟩] (n.grant component.entry.kind place)

/-- Any number of steps, with the numbers that they give out. -/
inductive Steps : Numbering → List Grant → Numbering → Prop
  | nil (n : Numbering) : Steps n [] n
  | cons {n n' n'' : Numbering} {new log : List Grant} :
      Step n new n' → Steps n' log n'' → Steps n (new ++ log) n''

variable {n n' n'' : Numbering} {log new : List Grant} {place : Nat}

theorem Step.steps (h : Step n new n') : Steps n new n' := by
  simpa using Steps.cons h (.nil n')

theorem Steps.trans (h : Steps n log n') (h' : Steps n' new n'') : Steps n (log ++ new) n'' := by
  induction h with
  | nil => exact h'
  | cons hstep _ ih =>
    rw [List.append_assoc]
    exact .cons hstep (ih h')

theorem tag?_enter (component : Component) (n : Numbering) : (n.enter component).tag? = n.tag? := by
  funext place
  rw [tag?, enter, tag?]
  rcases Nat.lt_trichotomy place n.cards.length with hlt | rfl | hgt
  · rw [List.getElem?_append_left hlt]
  · simp
  · rw [List.getElem?_eq_none (by simp; omega), List.getElem?_eq_none (by omega)]

theorem getElem?_cards_grant (kind : Kind) (place i : Nat) (n : Numbering) :
    (n.grant kind place).cards[i]? =
      if place = i then n.cards[i]?.map fun card => (card.1, some ⟨kind, n.next kind⟩)
      else n.cards[i]? := by
  rw [grant, List.getElem?_modify]
  by_cases hi : place = i <;> simp [hi]

theorem tag?_grant {card : Component × Option Tag} (h : n.cards[place]? = some card)
    (kind : Kind) :
    (n.grant kind place).tag? = Function.update n.tag? place (some ⟨kind, n.next kind⟩) := by
  funext i
  rw [Function.update_apply, tag?, getElem?_cards_grant]
  by_cases hi : i = place
  · subst hi
    simp [h]
  · rw [if_neg hi, if_neg (Ne.symm hi), tag?]

/-- Components stay, and so do the tags that they have. -/
theorem Step.kept (h : Step n new n') {component : Component} {tag : Tag}
    (hcard : n.cards[place]? = some (component, some tag)) :
    n'.cards[place]? = some (component, some tag) := by
  cases h with
  | enter =>
    rw [Numbering.enter, List.getElem?_append_left (List.getElem?_eq_some_iff.mp hcard).1, hcard]
  | grant i c hnone =>
    have hne : i ≠ place := by
      rintro rfl
      simp [hnone] at hcard
    rw [getElem?_cards_grant, if_neg hne, hcard]

theorem Steps.kept (h : Steps n log n') {component : Component} {tag : Tag}
    (hcard : n.cards[place]? = some (component, some tag)) :
    n'.cards[place]? = some (component, some tag) := by
  induction h with
  | nil => exact hcard
  | cons hstep _ ih => exact ih (hstep.kept hcard)

/-- Tags are of the kinds of their components. -/
def Fitting (n : Numbering) : Prop :=
  ∀ (place : Nat) (component : Component) (tag : Tag),
    n.cards[place]? = some (component, some tag) → tag.kind = component.entry.kind

theorem Fitting.step (hn : n.Fitting) (h : Step n new n') : n'.Fitting := by
  intro place component tag hcard
  cases h with
  | enter =>
    rw [Numbering.enter, getElem?_concat_eq_some] at hcard
    rcases hcard with hcard | ⟨-, hcard⟩
    · exact hn place component tag hcard
    · simp at hcard
  | grant i c hnone =>
    rw [getElem?_cards_grant] at hcard
    split at hcard
    next hi =>
      obtain ⟨rfl, rfl⟩ : c = component ∧ _ = tag := by simpa [← hi, hnone] using hcard
      rfl
    next => exact hn place component tag hcard

theorem Fitting.steps (hn : n.Fitting) (h : Steps n log n') : n'.Fitting := by
  induction h with
  | nil => exact hn
  | cons hstep _ ih => exact ih (hn.step hstep)

/-- All tags are those that the log has given in turn. -/
structure InTurn (n : Numbering) (log : List Grant) : Prop where
  next_eq : ∀ kind, (n.next kind).toNat = (recipients kind log).length + 1
  tag_iff : ∀ place tag, n.tag? place = some tag ↔ Received log place tag

/-- The next number goes to a component that had none. -/
theorem InTurn.grant (hn : n.InTurn log) {component : Component}
    (hcard : n.cards[place]? = some (component, none)) (kind : Kind)
    (hroom : (recipients kind log).length + 1 < UInt32.size - 1) :
    (n.grant kind place).InTurn (log ++ [⟨kind, place⟩]) := by
  have hnext := hn.next_eq kind
  constructor
  · intro k
    rw [recipients_concat, Numbering.grant]
    by_cases hk : kind = k
    · subst hk
      simp only [Function.update_self, if_true, List.length_append, List.length_singleton]
      rw [Roster.toNat_add_one (by omega), hnext]
    · simp only [Function.update_of_ne (Ne.symm hk), if_neg hk]
      exact hn.next_eq k
  · intro i tag
    rw [received_concat, tag?_grant hcard, Function.update_apply]
    by_cases hi : i = place
    · subst hi
      have hnone : n.tag? i = none := by rw [tag?, hcard, Option.bind_some]
      -- Without a tag it has had no turn before, so this one alone decides which tag it has.
      have hnot : ¬ Received log i tag := fun h => by
        have hsome := (hn.tag_iff i tag).mpr h
        rw [hnone] at hsome
        contradiction
      rw [if_pos rfl, or_iff_right hnot]
      constructor
      · intro h
        obtain rfl := Option.some.inj h
        exact ⟨rfl, hnext⟩
      · rintro ⟨hgrant, hid⟩
        obtain rfl : kind = tag.kind := congrArg Grant.kind hgrant
        rw [UInt32.toNat_inj.mp (hnext.trans hid.symm)]
    · rw [if_neg hi, hn.tag_iff]
      exact (or_iff_left fun h => hi (congrArg Grant.place h.1).symm).symm

theorem InTurn.step (hn : n.InTurn log) (h : Step n new n')
    (hroom : ∀ kind, (recipients kind (log ++ new)).length < UInt32.size - 1) :
    n'.InTurn (log ++ new) := by
  cases h with
  | enter component =>
    rw [List.append_nil]
    exact ⟨hn.next_eq, fun place tag => tag?_enter component n ▸ hn.tag_iff place tag⟩
  | grant place component hcard =>
    have hkind := hroom component.entry.kind
    rw [recipients_concat, if_pos rfl, List.length_append] at hkind
    exact hn.grant hcard component.entry.kind hkind

/-- Steps keep the turns as long as no kind runs out of numbers. -/
theorem InTurn.steps (hn : n.InTurn log) (h : Steps n new n')
    (hroom : ∀ kind, (recipients kind (log ++ new)).length < UInt32.size - 1) :
    n'.InTurn (log ++ new) := by
  induction h generalizing log with
  | nil =>
    rw [List.append_nil]
    exact hn
  | @cons _ _ _ first rest hstep _ ih =>
    rw [← List.append_assoc] at hroom ⊢
    refine ih (hn.step hstep fun kind => ?_) hroom
    -- Where there is room for the whole log there is room for its beginning.
    have hall := hroom kind
    rw [length_recipients_append] at hall
    omega

/-- The components that got numbers of a kind have the numbers from one on. -/
theorem InTurn.tags_recipients (hn : n.InTurn log) (kind : Kind)
    (hroom : (recipients kind log).length < UInt32.size - 1) :
    (recipients kind log).map n.tag? =
      (List.range (recipients kind log).length).map fun turn => some ⟨kind, .ofNat (turn + 1)⟩ := by
  apply List.ext_getElem
  · simp
  · intro turn h _
    rw [List.getElem_map, List.getElem_map, List.getElem_range, hn.tag_iff]
    rw [List.length_map] at h
    refine ⟨turn, ?_, List.getElem?_eq_getElem h⟩
    exact UInt32.toNat_ofNat_of_lt' (by omega)

theorem InTurn.unique (hn : n.InTurn log) {i j : Nat} {tag : Tag} (hi : n.tag? i = some tag)
    (hj : n.tag? j = some tag) : i = j := by
  obtain ⟨turn, hid, hi⟩ := (hn.tag_iff i tag).mp hi
  obtain ⟨turn', hid', hj⟩ := (hn.tag_iff j tag).mp hj
  obtain rfl : turn = turn' := by omega
  exact Option.some.inj (hi.symm.trans hj)

/-- Exactly the numbers from one up to how many were given out are carried. -/
theorem InTurn.carried_iff (hn : n.InTurn log) (tag : Tag) : (∃ place, n.tag? place = some tag) ↔
    1 ≤ tag.id.toNat ∧ tag.id.toNat ≤ (recipients tag.kind log).length := by
  constructor
  · rintro ⟨place, hplace⟩
    obtain ⟨turn, hid, hturn⟩ := (hn.tag_iff place tag).mp hplace
    have hlt := (List.getElem?_eq_some_iff.mp hturn).1
    omega
  · rintro ⟨hpos, hle⟩
    obtain ⟨turn, hid⟩ : ∃ turn, tag.id.toNat = turn + 1 := ⟨tag.id.toNat - 1, by omega⟩
    exact ⟨_, (hn.tag_iff _ tag).mpr ⟨turn, hid, List.getElem?_eq_getElem (by omega)⟩⟩

end Numbering

end TrafficAnalyzers
