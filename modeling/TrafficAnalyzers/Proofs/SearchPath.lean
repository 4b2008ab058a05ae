import Mathlib.Data.List.DropRight
import TrafficAnalyzers.Proofs.Paths
import TrafficAnalyzers.Proofs.Text.Utf8
import TrafficAnalyzers.SearchPath
/-!
Lists of directories and their entries. Main statement: a list shows entries that are not empty and
have neither a colon nor white space at their ends, and such a text is a list of itself alone.
-/
namespace TrafficAnalyzers

namespace Text

/-- No white space at either end. -/
structure Tight (cs : List Char) : Prop where
  first : ∀ c ∈ cs.head?, isBlank c = false
  last : ∀ c ∈ cs.getLast?, isBlank c = false

instance (cs : List Char) : Decidable (Tight cs) :=
  decidable_of_iff
    (cs.head?.all (isBlank · = false) = true ∧ cs.getLast?.all (isBlank · = false) = true) <| by
    simp only [Option.all_eq_true, decide_eq_true_eq]
    exact ⟨fun ⟨hfirst, hlast⟩ => ⟨hfirst, hlast⟩, fun h => ⟨h.first, h.last⟩⟩

theorem trim_eq_rdropWhile (cs : List Char) :
    trim cs = (cs.dropWhile isBlank).rdropWhile isBlank := rfl

theorem trim_subset (cs : List Char) : trim cs ⊆ cs := fun _ h =>
  (List.dropWhile_suffix isBlank).subset ((List.rdropWhile_prefix isBlank _).subset h)

theorem tight_trim (cs : List Char) : Tight (trim cs) := by
  rw [trim_eq_rdropWhile]
  constructor
  · intro c hc
    obtain ⟨rest, hrest⟩ := List.rdropWhile_prefix isBlank (cs.dropWhile isBlank)
    have hhead : c ∈ (cs.dropWhile isBlank).head? := by
      rw [← hrest, List.head?_append, Option.mem_def.mp hc]
      rfl
    have hfirst := List.head?_dropWhile_not isBlank cs
    rw [Option.mem_def.mp hhead] at hfirst
    simpa using hfirst
  · intro c hc
    obtain ⟨hne, rfl⟩ := List.mem_getLast?_eq_getLast hc
    simpa using List.rdropWhile_last_not isBlank _ hne

theorem trim_of_tight {cs : List Char} (h : Tight cs) : trim cs = cs := by
  have hfirst : cs.dropWhile isBlank = cs := by
    cases cs with
    | nil => rfl
    | cons c cs =>
      rw [List.dropWhile_cons_of_neg]
      simpa using h.first c rfl
  rw [trim_eq_rdropWhile, hfirst, List.rdropWhile_eq_self_iff]
  intro hne
  simpa using h.last _ (List.getLast_mem_getLast? hne)

end Text

namespace SearchPath

/-- A text that can stand in a list as one entry. -/
structure Entry (cs : List Char) : Prop extends Text.Tight cs where
  nonempty : cs ≠ []
  no_colon : ':' ∉ cs

instance (cs : List Char) : Decidable (Entry cs) :=
  decidable_of_iff (Text.Tight cs ∧ cs ≠ [] ∧ ':' ∉ cs)
    ⟨fun ⟨h₁, h₂, h₃⟩ => ⟨h₁, h₂, h₃⟩, fun h => ⟨h.toTight, h.nonempty, h.no_colon⟩⟩

variable {cs paths : List Char}

theorem entry_of_mem (h : cs ∈ entriesOf paths) : Entry cs := by
  obtain ⟨hmem, hnonempty⟩ := List.mem_filter.mp h
  obtain ⟨piece, hpiece, rfl⟩ := List.mem_map.mp hmem
  refine ⟨Text.tight_trim piece, by simpa using hnonempty, fun hcolon => ?_⟩
  exact Text.not_mem_of_mem_fields hpiece (Text.trim_subset piece hcolon)

theorem entriesOf_entry (h : Entry cs) : entriesOf cs = [cs] := by
  rw [entriesOf, Text.fields_of_not_mem h.no_colon, List.map_singleton, Text.trim_of_tight h.toTight,
    List.filter_cons_of_pos (by simp [h.nonempty]), List.filter_nil]

theorem entry_of_mem_entries {dir list : String} (h : dir ∈ entries list) : Entry dir.toList := by
  obtain ⟨cs, hcs, rfl⟩ := List.mem_map.mp h
  rw [String.toList_ofList]
  exact entry_of_mem hcs

theorem entries_entry {dir : String} (h : Entry dir.toList) : entries dir = [dir] := by
  rw [entries, entriesOf_entry h, List.map_singleton, String.ofList_toList]

/-- A text is a list of itself alone exactly if it can be an entry. -/
theorem entries_eq_singleton_iff {dir : String} : entries dir = [dir] ↔ Entry dir.toList := by
  refine ⟨fun h => ?_, entries_entry⟩
  have hmem : dir ∈ entries dir := by
    rw [h]
    exact List.mem_singleton_self dir
  exact entry_of_mem_entries hmem

end SearchPath

end TrafficAnalyzers
