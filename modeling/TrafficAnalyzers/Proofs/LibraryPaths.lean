import TrafficAnalyzers.Proofs.Discovery
import TrafficAnalyzers.Proofs.Modules.Loading
import TrafficAnalyzers.Proofs.Paths.Children
import TrafficAnalyzers.Proofs.SearchPath
/-!
The directories that a plugin adds to its host's search path. Main statement: those of the settings,
then those that the text of its own library directory lists, and nothing that is discovered adds
more; the library directory comes as one directory exactly if the plugin's own directory has no colon
and no white space in front.
-/
namespace TrafficAnalyzers

/-- How to read the search path of a host: a directory that is added comes to its end, and no request
of registration concerns it. -/
structure Host.SearchPathView (H : Type) [Host H] where
  path : H → List String
  path_addSearchPath (dir : String) (h : H) : path (Host.addSearchPath dir h) = path h ++ [dir]
  path_request {h h' : H} : Host.Request h h' → path h' = path h

namespace Host

variable {H : Type} [Host H]

/-- A host that gets directories for its search path, one after the other. -/
def addSearchPaths (dirs : List String) (h : H) : H :=
  dirs.foldl (fun h dir => Host.addSearchPath dir h) h

theorem addSearchPaths_append (dirs dirs' : List String) (h : H) :
    addSearchPaths (dirs ++ dirs') h = addSearchPaths dirs' (addSearchPaths dirs h) :=
  List.foldl_append

namespace SearchPathView

variable (v : SearchPathView H)

theorem path_addSearchPaths (dirs : List String) (h : H) :
    v.path (addSearchPaths dirs h) = v.path h ++ dirs := by
  induction dirs generalizing h with
  | nil => rw [addSearchPaths, List.foldl_nil, List.append_nil]
  | cons dir dirs ih =>
    rw [addSearchPaths, List.foldl_cons, ← addSearchPaths, ih, v.path_addSearchPath,
      List.append_assoc, List.singleton_append]

theorem path_requests {h h' : H} (hrequests : Host.Requests h h') : v.path h' = v.path h := by
  induction hrequests with
  | refl => rfl
  | tail _ hrequest ih => exact (v.path_request hrequest).trans ih

end SearchPathView

end Host

namespace LocalHost

theorem searchPath_initComponent (component : Nat) (h : LocalHost) :
    (h.initComponent component).2.searchPath = h.searchPath := by
  unfold initComponent
  split
  · rfl
  next c _ =>
    split
    · rfl
    · cases hkind : c.component.entry.kind <;> rfl

theorem searchPath_addScriptLocation (name : String) (h : LocalHost) :
    (Host.addScriptLocation name h).searchPath = h.searchPath := by
  change (if _ then h else _ : LocalHost).searchPath = h.searchPath
  split <;> rfl

/-- The list that a host in memory keeps. -/
def searchPathView : Host.SearchPathView LocalHost where
  path h := h.searchPath
  path_addSearchPath _ _ := rfl
  path_request hrequest := by
    cases hrequest with
    | initComponent component => exact searchPath_initComponent component _
    | addScriptLocation name => exact searchPath_addScriptLocation name _
    | _ => rfl

theorem path_searchPathView (h : LocalHost) : searchPathView.path h = h.searchPath := rfl

end LocalHost

namespace SearchPath

/-- What stands before an entry makes another one of it, unless it brings a colon or white space in
front. -/
theorem entry_append_iff {cs ds : List Char} (hds : Entry ds) : Entry (cs ++ ds) ↔
    ':' ∉ cs ∧ ∀ c ∈ cs.head?, Text.isBlank c = false := by
  constructor
  · refine fun h => ⟨fun hcolon => h.no_colon (List.mem_append_left ds hcolon), fun c hc => ?_⟩
    refine h.first c ?_
    rw [List.head?_append, Option.mem_def.mp hc]
    rfl
  · rintro ⟨hcolon, hfirst⟩
    refine ⟨⟨fun c hc => ?_, fun c hc => ?_⟩, by simp [hds.nonempty], ?_⟩
    · cases cs with
      | nil => exact hds.first c hc
      | cons a cs => exact hfirst c hc
    · rw [List.getLast?_append_of_ne_nil cs hds.nonempty] at hc
      exact hds.last c hc
    · rw [List.mem_append, not_or]
      exact ⟨hcolon, hds.no_colon⟩

end SearchPath

namespace Path

/-- The text of a joined path is that of its parts, with a slash between them unless one is there. -/
theorem toList_text_join {p q : Path} (hp : p.bytes ≠ []) (hq : q.isAbsolute = false) :
    (p.join q).text.toList =
      p.text.toList ++ ((if p.endsInSlash then [] else ['/']) ++ q.text.toList) := by
  have hslash (as bs : List UInt8) : Text.Utf8.lossy (as ++ slash :: bs) =
      Text.Utf8.lossy as ++ '/' :: Text.Utf8.lossy bs :=
    Text.Utf8.lossy_append_ascii (by decide) as bs
  rw [join, if_neg (by simp [hp, hq])]
  split
  next hend =>
    simp only [text, String.toList_ofList]
    rw [stem_of_slash hend, List.append_assoc, List.singleton_append, hslash, hslash,
      show Text.Utf8.lossy [] = [] from rfl]
    simp
  next =>
    simp only [text, String.toList_ofList, hslash]
    rfl

/-- The directory of a plugin's own library, as text. -/
def library (own : Path) : String := (own.join (.ofString "spicy")).text

/-- When it is a list of itself alone. -/
theorem entries_library_iff (own : Path) : SearchPath.entries own.library = [own.library] ↔
    ':' ∉ own.text.toList ∧ ∀ c ∈ own.text.toList.head?, Text.isBlank c = false := by
  rw [SearchPath.entries_eq_singleton_iff, library]
  by_cases hown : own.bytes = []
  · obtain ⟨bytes⟩ := own
    subst hown
    exact iff_of_true (by decide +kernel) ⟨List.not_mem_nil, nofun⟩
  · rw [toList_text_join hown (by decide +kernel), text_ofString]
    refine SearchPath.entry_append_iff ?_
    split <;> decide +kernel

end Path

/-- The library directories that the settings name. -/
def Settings.libraryDirectories (s : Settings) : List String :=
  s.libraryPath.toList.flatMap SearchPath.entries

namespace Plugin

variable {H : Type} [Host H]

/-- A plugin whose host got more directories to search. -/
def widen (dirs : List String) (p : Plugin H) : Plugin H :=
  { p with registry := { p.registry with host := Host.addSearchPaths dirs p.registry.host } }

theorem widen_append (dirs dirs' : List String) (p : Plugin H) :
    p.widen (dirs ++ dirs') = (p.widen dirs).widen dirs' := by
  simp only [widen, Host.addSearchPaths_append]

theorem silent_addLibraryPaths (dirs : String) (p : Plugin H) :
    (addLibraryPaths dirs p).silent = (.ok (), p.widen (SearchPath.entries dirs)) := by
  unfold addLibraryPaths
  generalize SearchPath.entries dirs = l
  induction l generalizing p with
  | nil => rfl
  | cons dir l ih =>
    rw [Op.forM_cons, Op.silent_bind]
    exact ih (p.widen [dir])

/-- The library directories of the settings come first. -/
theorem silent_addExtraPaths (p : Plugin H) :
    (p.settings.libraryPath.toList.forM addLibraryPaths p).silent =
      (.ok (), p.widen p.settings.libraryDirectories) := by
  unfold Settings.libraryDirectories
  cases p.settings.libraryPath with
  | none => rfl
  | some dirs =>
    rw [Option.toList_some, Op.forM_cons, Op.silent_bind, silent_addLibraryPaths, Op.proceed_ok,
      List.flatMap_singleton]
    rfl

/-- Before the host reads its scripts the plugin adds library directories and then discovers, unless
it does not find its own directory. -/
theorem silent_beforeScripts (env : Environment) (p : Plugin H) : (beforeScripts env p).silent =
    match p.settings.ownDirectory env.executable with
    | .ok own => (discover env (p.widen
        (p.settings.libraryDirectories ++ SearchPath.entries own.library))).silent
    | .error fault => (.error fault, p.widen p.settings.libraryDirectories) := by
  rw [beforeScripts, Op.silent_debug_bind, Op.silent_read_bind, Op.silent_bind,
    silent_addExtraPaths, Op.proceed_ok, Op.silent_read_bind,
    show (p.widen p.settings.libraryDirectories).settings = p.settings from rfl]
  cases p.settings.ownDirectory env.executable with
  | error fault => rfl
  | ok own =>
    rw [show (Op.ofExcept (.ok own) : Op (Plugin H) Path) = pure own from rfl, pure_bind,
      ← Path.library, Op.silent_bind, silent_addLibraryPaths, Op.proceed_ok, ← widen_append,
      Op.silent_bind_debug]

/-- The host comes from the one to the other by the requests of registration. -/
def Requests (p q : Plugin H) : Prop := Host.Requests p.registry.host q.registry.host

instance : IsPreorder (Plugin H) Requests where
  refl _ := .refl
  trans _ _ _ h h' := h.trans h'

theorem requests_load (access : Access) (path : Path) :
    (load access path : Op (Plugin H) Bool).Follows Requests :=
  (follows_whileRegistering _).bind fun _ p =>
    registry_loadOnce (R := fun r r' => Host.Requests r.host r'.host)
      (fun script r => (Registry.enlarges_run script r).requests) access path p

theorem requests_loadBelow (env : Environment) (paths : String) :
    (loadBelow env paths : Op (Plugin H) Unit).Follows Requests := by
  refine (Op.follows_read _).bind fun extension => Op.Follows.bind (fun p => ?_) fun found => ?_
  · rw [state_of_silent (Discovery.silent_search env.files extension paths p)]
    exact refl p
  · exact Op.Follows.forM fun path _ => (requests_load env.access path).bind fun _ =>
      Op.follows_pure ()

/-- Discovery asks of the host what registration does. -/
theorem requests_discover (env : Environment) :
    (discover env : Op (Plugin H) Unit).Follows Requests :=
  (Op.follows_read _).bind fun _ => Op.Follows.forM fun paths _ => requests_loadBelow env paths

/-- What becomes of the host's search path before the host reads its scripts. -/
structure AddsLibraryPaths (env : Environment) (p : Plugin H) : Prop where
  /-- The directories are added first; discovery then makes the requests of registration only. -/
  located : ∀ own, p.settings.ownDirectory env.executable = .ok own →
    let q := p.widen (p.settings.libraryDirectories ++ SearchPath.entries own.library)
    (beforeScripts env p).silent = (discover env q).silent ∧
      Host.Requests q.registry.host (beforeScripts env p).state.registry.host
  /-- So the search path gets these directories and no others, whether discovery succeeds or not. -/
  path : ∀ own, p.settings.ownDirectory env.executable = .ok own → ∀ v : Host.SearchPathView H,
    v.path (beforeScripts env p).state.registry.host = v.path p.registry.host ++
      (p.settings.libraryDirectories ++ SearchPath.entries own.library)
  /-- Without a directory of its own the plugin adds those of the settings and stops. -/
  missing : ∀ fault, p.settings.ownDirectory env.executable = .error fault →
    (beforeScripts env p).silent = (.error fault, p.widen p.settings.libraryDirectories)
  /-- When the library directory is added as one directory. -/
  whole : ∀ own : Path, SearchPath.entries own.library = [own.library] ↔
    ':' ∉ own.text.toList ∧ ∀ c ∈ own.text.toList.head?, Text.isBlank c = false

/-- Before the host reads its scripts its search path gets the library directories of the settings
and then what the text of the plugin's library directory lists. -/
theorem library_paths_added (env : Environment) (p : Plugin H) : AddsLibraryPaths env p := by
  have hlocated : ∀ own, p.settings.ownDirectory env.executable = .ok own →
      let q := p.widen (p.settings.libraryDirectories ++ SearchPath.entries own.library)
      (beforeScripts env p).silent = (discover env q).silent ∧
        Host.Requests q.registry.host (beforeScripts env p).state.registry.host := by
    intro own hown q
    have hsilent := silent_beforeScripts env p
    rw [hown] at hsilent
    refine ⟨hsilent, ?_⟩
    rw [state_eq_silent, hsilent]
    exact requests_discover env q
  refine
    { located := hlocated
      path := fun own hown v => ?_
      missing := fun fault hown => ?_
      whole := Path.entries_library_iff }
  · rw [v.path_requests (hlocated own hown).2]
    exact v.path_addSearchPaths _ _
  · rw [silent_beforeScripts, hown]

/-- A directory with a colon in its name comes as two, also when a module that is discovered cannot
be opened. -/
theorem own_library_split :
    let name (s : String) : Name := (Path.ofString s).bytes
    let files : FileSystem := ⟨.dir (name "m") (.file (name "x.hlto") .library .empty) .empty, ⟨[]⟩⟩
    let env : Environment := ⟨[], none, .error .notFound, files, .epoch⟩
    let settings : Settings := ⟨none, some " /a : :/b", .ofString "m",
      some (.ofString "/opt/a:b"), none, "hlto", []⟩
    let p : Plugin LocalHost := ⟨settings, .new (.new 0 "" true) [], .empty, .registering⟩
    (beforeScripts env p).result.toOption = none ∧
      (beforeScripts env p).state.registry.host.searchPath = ["/a", "/b", "/opt/a", "b/spicy"] ∧
      (Path.ofString "/opt/a:b").library = "/opt/a:b/spicy" ∧
      SearchPath.entries (Path.ofString "/opt/a:b").library ≠ ["/opt/a:b/spicy"] := by
  intro name files env settings p
  have hadds := library_paths_added env p
  refine ⟨by decide +kernel, ?_, by decide +kernel, by decide +kernel⟩
  rw [← LocalHost.path_searchPathView, hadds.path (.ofString "/opt/a:b") rfl]
  decide +kernel

end Plugin

end TrafficAnalyzers
