import TrafficAnalyzers.Discovery
import TrafficAnalyzers.Proofs.Operations
/-!
What a search for modules comes to. Main statement: a search never fails and leaves the state alone,
and what it finds is a function of the files, the extension and the directories.
-/
namespace TrafficAnalyzers.Discovery

variable {σ : Type} (fs : FileSystem) (extension : String)

/-- The module files below the directories of a list, in the order of the list. -/
def found (paths : String) : List Path :=
  (SearchPath.entries paths).flatMap fun dir => below fs extension (.ofString dir)

theorem silent_searchDirectory (dir : String) (s : σ) :
    (searchDirectory fs extension dir s).silent =
      (.ok (below fs extension (.ofString dir)), s) := by
  unfold searchDirectory
  cases fs.dir? (.ofString dir) with
  | none =>
    dsimp only
    rw [Op.silent_debug_bind, Op.silent_pure]
  | some entries =>
    dsimp only
    rw [Op.silent_debug_bind, Op.silent_bind, Op.silent_forM fun _ _ => rfl, Op.proceed_ok,
      Op.silent_pure]

theorem silent_search (paths : String) (s : σ) :
    (search fs extension paths s).silent = (.ok (found fs extension paths), s) := by
  rw [search, map_eq_pure_bind, Op.silent_bind,
    Op.silent_mapM (silent_searchDirectory fs extension), Op.proceed_ok, Op.silent_pure]
  rfl

/-- A search through several lists finds what it finds for each of them. -/
theorem silent_searchAll (lists : List String) (s : σ) :
    (searchAll fs extension lists s).silent =
      (.ok (lists.flatMap (found fs extension)), s) := by
  rw [searchAll, map_eq_pure_bind, Op.silent_bind,
    Op.silent_mapM (silent_search fs extension), Op.proceed_ok, Op.silent_pure]
  rfl

end TrafficAnalyzers.Discovery
