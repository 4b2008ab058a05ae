import TrafficAnalyzers.Proofs.Discovery.Trees
import TrafficAnalyzers.Proofs.SearchPath
/-!
Which directories are searched for modules by default. Main statement: besides the host's own, those
that the text of the configured directory lists; the configured directory is among them exactly if
its text is one entry and denotes it again, and then all modules below it are found.
-/
namespace TrafficAnalyzers

/-- The directory can be written in a list: its text is one entry, which denotes it again. -/
structure Path.Listable (p : Path) : Prop where
  entry : SearchPath.Entry p.text.toList
  denotes : ofString p.text = p

instance (p : Path) : Decidable p.Listable :=
  decidable_of_iff (SearchPath.Entry p.text.toList ∧ Path.ofString p.text = p)
    ⟨fun ⟨hentry, hdenotes⟩ => ⟨hentry, hdenotes⟩, fun h => ⟨h.entry, h.denotes⟩⟩

/-- The directories of a list. -/
def SearchPath.directories (list : String) : List Path := (entries list).map .ofString

theorem SearchPath.listable_of_mem {dir : Path} {list : String} (h : dir ∈ directories list) :
    dir.Listable := by
  obtain ⟨entry, hentry, rfl⟩ := List.mem_map.mp h
  constructor
  · rw [Path.text_ofString]
    exact entry_of_mem_entries hentry
  · rw [Path.text_ofString]

theorem Path.Listable.directories {dir : Path} (h : dir.Listable) :
    SearchPath.directories dir.text = [dir] := by
  rw [SearchPath.directories, SearchPath.entries_entry h.entry, List.map_singleton, h.denotes]

namespace Settings

/-- The directories that are searched for modules. -/
def searchedDirectories (s : Settings) (hostPluginPath : String) : List Path :=
  (s.searchPaths hostPluginPath).flatMap SearchPath.directories

variable {s : Settings}

theorem searchedDirectories_default (hs : s.modulePathOverride? = none) (hostPluginPath : String) :
    s.searchedDirectories hostPluginPath =
      SearchPath.directories s.moduleDirectory.text ++ SearchPath.directories hostPluginPath := by
  rw [searchedDirectories, searchPaths, hs]
  simp

theorem listable_of_mem_searchedDirectories {dir : Path} {hostPluginPath : String}
    (h : dir ∈ s.searchedDirectories hostPluginPath) : dir.Listable := by
  obtain ⟨list, -, hdir⟩ := List.mem_flatMap.mp h
  exact SearchPath.listable_of_mem hdir

end Settings

namespace Discovery

/-- The module files below some directories. -/
def foundBelow (fs : FileSystem) (extension : String) (dirs : List Path) : List Path :=
  dirs.flatMap (below fs extension)

theorem flatMap_found (fs : FileSystem) (s : Settings) (hostPluginPath : String) :
    (s.searchPaths hostPluginPath).flatMap (found fs s.moduleExtension) =
      foundBelow fs s.moduleExtension (s.searchedDirectories hostPluginPath) := by
  simp only [foundBelow, Settings.searchedDirectories, List.flatMap_assoc]
  congr 1
  funext list
  rw [SearchPath.directories, List.flatMap_map, found]

/-- What the default search comes to under settings whose module directory exists. -/
structure SearchesConfigured (fs : FileSystem) (s : Settings) (d : Dir) (hostPluginPath : String) :
    Prop where
  /-- A search finds the modules below the searched directories and leaves the state alone. -/
  search : ∀ {σ : Type} (t : σ),
    (searchAll fs s.moduleExtension (s.searchPaths hostPluginPath) t).silent =
      (.ok (foundBelow fs s.moduleExtension (s.searchedDirectories hostPluginPath)), t)
  /-- A plugin loads what is found there and nothing else. -/
  discover : ∀ {H : Type} [Host H] (p : Plugin H) (env : Environment), env.files = fs →
    p.settings = s → Host.pluginPath p.registry.host = hostPluginPath →
      (Plugin.discover env p).silent = (Plugin.loadEach env.access
        (foundBelow fs s.moduleExtension (s.searchedDirectories hostPluginPath)) p).silent
  directories : s.searchedDirectories hostPluginPath =
    SearchPath.directories s.moduleDirectory.text ++ SearchPath.directories hostPluginPath
  configured : s.moduleDirectory ∈ s.searchedDirectories hostPluginPath ↔ s.moduleDirectory.Listable
  /-- No other directory is searched then than the configured one and the host's. -/
  listable : s.moduleDirectory.Listable → s.searchedDirectories hostPluginPath =
    s.moduleDirectory :: SearchPath.directories hostPluginPath
  /-- Below the configured directory nothing is missed then. -/
  complete : s.moduleDirectory.Listable → ∀ names name node,
    d.descend (names ++ [name]) = some node →
      Path.nameExtension? name = some (Text.Utf8.encode s.moduleExtension.toList) →
        fs.isFile (s.moduleDirectory.children (names ++ [name])) = true →
          s.moduleDirectory.children (names ++ [name]) ∈
            foundBelow fs s.moduleExtension (s.searchedDirectories hostPluginPath)
  /-- A path to a file denotes that file, unless it is too long. -/
  file : ∀ names content, d.descend names = some (.file content) →
    (fs.isFile (s.moduleDirectory.children names) = true ↔
      (s.moduleDirectory.children names).bytes.length < FileSystem.pathLimit)

/-- The configured directory is searched exactly if it can be written in a list. -/
theorem configured_directory_searched {fs : FileSystem} (hfs : fs.root.Proper) {s : Settings}
    (hs : s.modulePathOverride? = none) {d : Dir} (hd : fs.dir? s.moduleDirectory = some d)
    (hostPluginPath : String) : SearchesConfigured fs s d hostPluginPath := by
  have hdirectories := Settings.searchedDirectories_default hs hostPluginPath
  have hlistable (h : s.moduleDirectory.Listable) : s.searchedDirectories hostPluginPath =
      s.moduleDirectory :: SearchPath.directories hostPluginPath := by
    rw [hdirectories, h.directories, List.singleton_append]
  have hconfigured (h : s.moduleDirectory.Listable) :
      s.moduleDirectory ∈ s.searchedDirectories hostPluginPath := by
    rw [hlistable h]
    exact List.mem_cons_self
  refine
    { search := fun t => ?_
      discover := ?_
      directories := hdirectories
      configured := ⟨Settings.listable_of_mem_searchedDirectories, hconfigured⟩
      listable := hlistable
      complete := fun h names name node hnode hextension hfile => ?_
      file := fun names content => FileSystem.isFile_children_file hfs hd }
  · rw [silent_searchAll, flatMap_found]
  · rintro H _ p env rfl rfl rfl
    rw [Plugin.silent_discover, flatMap_found]
  · refine List.mem_flatMap.mpr ⟨s.moduleDirectory, hconfigured h, ?_⟩
    rw [(enumerates_below hfs s.moduleExtension s.moduleDirectory).mem]
    exact ⟨d, names, name, node, hd, hnode, rfl, hextension, hfile⟩

/-- A directory with a colon in its name and two without, each with one module. -/
def colonNamed : FileSystem :=
  let name (s : String) : Name := (Path.ofString s).bytes
  let holding (file : String) : Dir := .file (name file) (.module []) .empty
  ⟨.dir (name "a:b") (holding "m.hlto") (.dir (name "b") (holding "n.hlto")
    (.dir (name "c") (holding "k.hlto") .empty)), ⟨[]⟩⟩

/-- Of the directory `a:b` nothing is found, but what is in `b`; all of the directory `c` is found. -/
theorem colon_directory_missed :
    let env : Environment := ⟨[], none, .ok ⟨[]⟩, colonNamed, .epoch⟩
    let configured (dir : String) : Settings :=
      { Settings.default env with moduleDirectory := .ofString dir }
    (configured "a:b").modulePathOverride? = none ∧
      (colonNamed.dir? (.ofString "a:b")).isSome = true ∧
      colonNamed.isFile (.ofString "a:b/m.hlto") = true ∧
      .ofString "a:b" ∉ (configured "a:b").searchedDirectories "c" ∧
      ((searchAll colonNamed "hlto" ((configured "a:b").searchPaths "c") ()).silent.1.toOption.map
        (·.map Path.text)) = some ["b/n.hlto", "c/k.hlto"] ∧
      Path.ofString "c/k.hlto" ∈
        foundBelow colonNamed "hlto" ((configured "c").searchedDirectories "") := by
  intro env configured
  have hproper : colonNamed.root.Proper := by decide +kernel
  obtain ⟨d, hd⟩ : ∃ d, colonNamed.dir? (configured "a:b").moduleDirectory = some d :=
    Option.isSome_iff_exists.mp (by decide +kernel)
  have hmissed := configured_directory_searched hproper (s := configured "a:b") rfl hd "c"
  have hwhole := configured_directory_searched hproper (s := configured "c") rfl
    (d := .file (Path.ofString "k.hlto").bytes (.module []) .empty) (by rfl) ""
  refine ⟨rfl, by decide +kernel, by decide +kernel, ?_, ?_, ?_⟩
  · exact hmissed.configured.not.mpr (by decide +kernel)
  · have hsearch := hmissed.search ()
    rw [show (configured "a:b").moduleExtension = "hlto" from rfl] at hsearch
    rw [hsearch]
    decide +kernel
  · exact hwhole.complete (by decide +kernel) [] (Path.ofString "k.hlto").bytes
      (.file (.module [])) (by rfl) (by decide +kernel) (by decide +kernel)

end Discovery

end TrafficAnalyzers
