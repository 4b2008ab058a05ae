import TrafficAnalyzers.Proofs.FileSystem.Walks
import TrafficAnalyzers.Proofs.Modules.Listing
import TrafficAnalyzers.Proofs.Session
/-!
Which files a search for modules finds. Main statement: below each directory of the list, each file
with the extension that is reached without going through a link, once; and in whatever order these
files are loaded, their locations are what is added to the list of modules.
-/
namespace TrafficAnalyzers

namespace Discovery

variable {fs : FileSystem} {extension : String} {base : Path}

/-- The paths of the module files below a directory, each of them once: a file, or a link to one, at
the end of names that lead down through directories. What denotes no directory has none. -/
structure Enumerates (fs : FileSystem) (extension : String) (base : Path) (l : List Path) :
    Prop where
  nodup : l.Nodup
  mem : ∀ p, p ∈ l ↔ ∃ d names name node, fs.dir? base = some d ∧
    d.descend (names ++ [name]) = some node ∧ p = base.children (names ++ [name]) ∧
      Path.nameExtension? name = some (Text.Utf8.encode extension.toList) ∧ fs.isFile p = true

/-- The entries of a directory that are modules, by their names. -/
theorem isModule_children (hfs : fs.root.Proper) {d : Dir} (hbase : fs.dir? base = some d)
    {names : List Name} {name : Name} {node : Node}
    (hnode : d.descend (names ++ [name]) = some node) :
    isModule fs extension (base.children (names ++ [name])) = true ↔
      Path.nameExtension? name = some (Text.Utf8.encode extension.toList) ∧
        fs.isFile (base.children (names ++ [name])) = true := by
  have hnonempty := (FileSystem.askable_of_dir? hbase).nonempty
  have hnames := ((FileSystem.proper_of_dir? hfs hbase).descend hnode).2
  rw [isModule, Path.extension?_children hnonempty fun n hn => (hnames n hn).toProper]
  simp

theorem enumerates_below (hfs : fs.root.Proper) (extension : String) (base : Path) :
    Enumerates fs extension base (below fs extension base) := by
  unfold below
  cases hbase : fs.dir? base with
  | none =>
    refine ⟨List.nodup_nil, fun p => iff_of_false List.not_mem_nil ?_⟩
    rintro ⟨d, names, name, node, hd, -⟩
    rw [hbase] at hd
    contradiction
  | some d =>
    have hd := FileSystem.proper_of_dir? hfs hbase
    have hnonempty := (FileSystem.askable_of_dir? hbase).nonempty
    refine ⟨(Dir.nodup_pathsBelow hd hnonempty).filter _, fun p => ?_⟩
    rw [List.mem_filter, Dir.mem_pathsBelow hd]
    constructor
    · rintro ⟨⟨names, node, hne, hnode, rfl⟩, hmodule⟩
      obtain ⟨before, name, rfl⟩ := (List.eq_nil_or_concat' names).resolve_left hne
      obtain ⟨hextension, hfile⟩ := (isModule_children hfs hbase hnode).mp hmodule
      exact ⟨d, before, name, node, hbase, hnode, rfl, hextension, hfile⟩
    · rintro ⟨d', names, name, node, hd', hnode, rfl, hextension, hfile⟩
      obtain rfl : d = d' := Option.some.inj (hbase.symm.trans hd')
      have hmodule := (isModule_children hfs hbase hnode).mpr ⟨hextension, hfile⟩
      exact ⟨⟨_, node, by simp, hnode, rfl⟩, hmodule⟩

/-- What a search through a list of directories comes to. -/
structure Searches (fs : FileSystem) (extension paths : String) : Prop where
  /-- The directories are searched in the order of the list. -/
  search : ∀ {σ : Type} (s : σ), (search fs extension paths s).silent =
    (.ok ((SearchPath.entries paths).flatMap fun dir => below fs extension (.ofString dir)), s)
  enumerates : ∀ base, Enumerates fs extension base (below fs extension base)
  /-- A path to a file denotes that file, unless it is too long. -/
  file : ∀ base d names content, fs.dir? base = some d → d.descend names = some (.file content) →
    (fs.isFile (base.children names) = true ↔
      (base.children names).bytes.length < FileSystem.pathLimit)
  directory : ∀ base d names entries, names ≠ [] → fs.dir? base = some d →
    d.descend names = some (.dir entries) → fs.isFile (base.children names) = false

/-- The module files below the directories of a list, those below each directory in an order of its
own. -/
def inOrder (orders : Path → List Path) (paths : String) : List Path :=
  (SearchPath.entries paths).flatMap fun dir => orders (.ofString dir)

theorem mem_inOrder (hfs : fs.root.Proper) {orders : Path → List Path}
    (horders : ∀ base, Enumerates fs extension base (orders base)) {paths : String} {p : Path} :
    p ∈ inOrder orders paths ↔ p ∈ found fs extension paths := by
  have hsame (base : Path) : p ∈ orders base ↔ p ∈ below fs extension base := by
    rw [(horders base).mem, (enumerates_below hfs extension base).mem]
  simp only [inOrder, found, List.mem_flatMap, hsame]

/-- Loading what is found adds its locations to the list of modules, in whatever order the files of
each directory come. -/
structure Collects {H : Type} [Host H] (fs : FileSystem) (paths : String) (env : Environment)
    (p : Plugin H) : Prop where
  order : (Plugin.loadBelow env paths p).silent = (Plugin.loadEach env.access
    (inOrder (below fs p.settings.moduleExtension) paths) p).silent
  loaded : ∀ orders, (∀ base, Enumerates fs p.settings.moduleExtension base (orders base)) →
    ∀ q, (Plugin.loadEach env.access (inOrder orders paths) p).silent = (.ok (), q) →
      ∀ location, location ∈ q.modules.keys ↔ location ∈ p.modules.keys ∨
        ∃ path ∈ found fs p.settings.moduleExtension paths, fs.canonicalize path = .ok location

/-- A search finds exactly the module files, and a plugin that loads them has them all. -/
theorem search_finds_modules {fs : FileSystem} (hfs : fs.root.Proper) (extension paths : String) :
    Searches fs extension paths ∧ ∀ {H : Type} [Host H] (p : Plugin H) (env : Environment),
      env.files = fs → Collects fs paths env p := by
  refine ⟨⟨silent_search fs extension paths, enumerates_below hfs extension,
    fun _ _ _ _ hbase => FileSystem.isFile_children_file hfs hbase,
    fun _ _ _ _ hne hbase => FileSystem.isFile_children_dir hfs hbase hne⟩, ?_⟩
  rintro H _ p env rfl
  refine ⟨Plugin.silent_loadBelow env paths p, fun orders horders q hload location => ?_⟩
  rw [(Plugin.lists_loadEach hload).mem_keys]
  simp only [mem_inOrder hfs horders]
  rfl

/-- A directory, and a link to it, with what looks like a module and is none: a name that is all
extension, a name without one, a directory and a link to itself. -/
def tangled : FileSystem :=
  let name (s : String) : Name := (Path.ofString s).bytes
  let inner := .file (0xFF :: name ".hlto") (.module [])
    (.link (name "c.hlto") (.ofString "../a.hlto") .empty)
  let entries := .file (name "a.hlto") (.module []) (.file (name ".hlto") (.module [])
    (.file (name "hlto") .library (.link (name "loop.hlto") (.ofString "loop.hlto")
      (.link (name "back") (.ofString ".") (.dir (name "d.hlto") inner .empty)))))
  ⟨.dir (name "m") entries (.link (name "n") (.ofString "m") .empty), ⟨[name "m"]⟩⟩

/-- Three modules below the directory, found under both its names and loaded from the last to the
first. -/
theorem tangled_modules_found :
    let paths := " /m : :/none:../n/"
    let env : Environment := ⟨[], none, .ok ⟨[]⟩, tangled, .epoch⟩
    let p := Plugin.bare (.new 0 "" true)
    let loading := Plugin.loadEach env.access
      (inOrder (fun base => (below tangled "hlto" base).reverse) paths) p
    ((search tangled "hlto" paths p).silent.1.toOption.map (·.map Path.text)) = some
      ["/m/a.hlto", "/m/d.hlto/�.hlto", "/m/d.hlto/c.hlto",
        "../n/a.hlto", "../n/d.hlto/�.hlto", "../n/d.hlto/c.hlto"] ∧
      loading.result = .ok () ∧
      (∀ location, location ∈ loading.state.modules.keys ↔
        ∃ path ∈ found tangled "hlto" paths, tangled.canonicalize path = .ok location) ∧
      loading.state.modules.keys.length = 2 := by
  intro paths env p loading
  obtain ⟨hsearches, hcollects⟩ :=
    search_finds_modules (show tangled.root.Proper by decide +kernel) "hlto" paths
  have hresult : loading.result = .ok () := by decide +kernel
  have horders (base : Path) :
      Enumerates tangled "hlto" base (below tangled "hlto" base).reverse := by
    obtain ⟨hnodup, hmem⟩ := hsearches.enumerates base
    exact ⟨List.nodup_reverse.mpr hnodup, fun p => List.mem_reverse.trans (hmem p)⟩
  have hloading : loading.silent = (.ok (), loading.state) := Prod.ext hresult rfl
  have hloaded := (hcollects p env rfl).loaded _ horders _ hloading
  refine ⟨?_, hresult, fun location => ?_, by decide +kernel⟩
  · rw [hsearches.search]
    decide +kernel
  · rw [hloaded]
    exact or_iff_right List.not_mem_nil

end Discovery

end TrafficAnalyzers
