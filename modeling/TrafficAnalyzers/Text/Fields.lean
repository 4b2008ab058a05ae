/-! Splitting a list at each occurrence of a separator. -/
namespace TrafficAnalyzers.Text

variable {α : Type} [DecidableEq α]

/-- The pieces between separators: one more than there are separators, so never none. -/
def fields (sep : α) : List α → List (List α)
  | [] => [[]]
  | a :: as =>
    match fields sep as with
    | [] => [[]]
    | piece :: pieces => if a = sep then [] :: piece :: pieces else (a :: piece) :: pieces

theorem fields_ne_nil (sep : α) (as : List α) : fields sep as ≠ [] := by
  cases as with
  | nil => simp [fields]
  | cons a as => simp only [fields]; split <;> (try split) <;> simp

@[simp] theorem fields_nil (sep : α) : fields sep [] = [[]] := rfl

/-- A separator opens a new piece. -/
@[simp] theorem fields_cons_self (sep : α) (as : List α) :
    fields sep (sep :: as) = [] :: fields sep as := by
  cases h : fields sep as with
  | nil => exact absurd h (fields_ne_nil sep as)
  | cons piece pieces => simp [fields, h]

end TrafficAnalyzers.Text
