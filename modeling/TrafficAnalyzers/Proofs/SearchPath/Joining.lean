import TrafficAnalyzers.Plugin
import TrafficAnalyzers.Proofs.Paths.Children
import TrafficAnalyzers.Proofs.SearchPath
/-!
Lists of directories put one after the other. Main statement: a colon between two lists makes a list
of the entries of both, what can be entries is read back from the list that joins them, and whoever
goes through a list goes through its parts in turn.
-/
namespace TrafficAnalyzers

namespace SearchPath

/-- The directories as one list. -/
def join (dirs : List String) : String := ":".intercalate dirs

theorem entriesOf_append (cs ds : List Char) :
    entriesOf (cs ++ ':' :: ds) = entriesOf cs ++ entriesOf ds := by
  simp only [entriesOf, Text.fields_append_sep, List.map_append, List.filter_append]

/-- A colon ends the first list. -/
theorem entries_append (list list' : String) :
    entries (list ++ ":" ++ list') = entries list ++ entries list' := by
  have htext : (list ++ ":" ++ list').toList = list.toList ++ ':' :: list'.toList := by simp
  rw [entries, htext, entriesOf_append, List.map_append]
  rfl

/-- Lists that are joined give the entries of all of them. -/
theorem entries_join (lists : List String) : entries (join lists) = lists.flatMap entries := by
  induction lists with
  | nil =>
    rw [join, String.intercalate_nil]
    rfl
  | cons list lists ih =>
    by_cases hlists : lists = []
    · subst hlists
      simp [join]
    · rw [join, String.intercalate_cons_of_ne_nil hlists, entries_append, List.flatMap_cons, ← ih]
      rfl

/-- Directories are read back from the list that joins them exactly if each can be an entry. -/
theorem entries_join_eq_iff {dirs : List String} :
    entries (join dirs) = dirs ↔ ∀ dir ∈ dirs, Entry dir.toList := by
  constructor
  · intro h dir hdir
    rw [← h] at hdir
    exact entry_of_mem_entries hdir
  · intro h
    rw [entries_join]
    induction dirs with
    | nil => rfl
    | cons dir dirs ih =>
      rw [List.forall_mem_cons] at h
      rw [List.flatMap_cons, entries_entry h.1, ih h.2, List.singleton_append]

end SearchPath

/-- The directories of the first list are searched before those of the second. -/
theorem Discovery.search_append {σ : Type} (fs : FileSystem) (extension list list' : String) :
    (search fs extension (list ++ ":" ++ list') : Op σ (List Path)) = do
      let found ← search fs extension list
      let found' ← search fs extension list'
      return found ++ found' := by
  simp only [search, SearchPath.entries_append, List.mapM_append, map_bind, bind_map_left, map_pure,
    List.flatten_append]

theorem Plugin.addLibraryPaths_append {H : Type} [Host H] (list list' : String) :
    (addLibraryPaths (list ++ ":" ++ list') : Op (Plugin H) Unit) =
      (do addLibraryPaths list; addLibraryPaths list') := by
  rw [addLibraryPaths, SearchPath.entries_append]
  exact List.forM_append ..

namespace SearchPath

/-- What holds of putting lists together. -/
structure Joins : Prop where
  append (list list' : String) : entries (list ++ ":" ++ list') = entries list ++ entries list'
  /-- No entry is empty, has a colon, or has white space at an end. -/
  entry (list : String) : ∀ dir ∈ entries list, Entry dir.toList
  /-- Of such entries a list is read back as it was, and of no others. -/
  readBack (dirs : List String) : entries (join dirs) = dirs ↔ ∀ dir ∈ dirs, Entry dir.toList
  again (list : String) : entries (join (entries list)) = entries list
  /-- A search finds and reports what it does for the two lists in turn. -/
  search {σ : Type} (fs : FileSystem) (extension list list' : String) :
    (Discovery.search fs extension (list ++ ":" ++ list') : Op σ (List Path)) = do
      let found ← Discovery.search fs extension list
      let found' ← Discovery.search fs extension list'
      return found ++ found'
  /-- So are library directories added. -/
  library {H : Type} [Host H] (list list' : String) :
    (Plugin.addLibraryPaths (list ++ ":" ++ list') : Op (Plugin H) Unit) =
      (do Plugin.addLibraryPaths list; Plugin.addLibraryPaths list')

/-- Parting and joining lists of directories undo each other, up to blanks and empty entries. -/
theorem lists_joined : Joins where
  append := entries_append
  entry _ _ := entry_of_mem_entries
  readBack _ := entries_join_eq_iff
  again _ := entries_join_eq_iff.mpr fun _ => entry_of_mem_entries
  search := Discovery.search_append
  library := Plugin.addLibraryPaths_append

/-- Blanks around entries are gone after the first reading; what has blanks inside stays whole, and
an entry with a colon does not come back. -/
theorem blank_entries_joined :
    entries (" /a : :" ++ ":" ++ "\u00a0b c\t") = ["/a"] ++ ["b c"] ∧
      entries (join ["/a", "b c"]) = ["/a", "b c"] ∧
      entries (join ["/a:b"]) ≠ ["/a:b"] := by
  refine ⟨(lists_joined.append _ _).trans (by decide +kernel), ?_, ?_⟩
  · exact (lists_joined.readBack _).mpr (by decide +kernel)
  · exact (lists_joined.readBack _).not.mpr (by decide +kernel)

end SearchPath

end TrafficAnalyzers
