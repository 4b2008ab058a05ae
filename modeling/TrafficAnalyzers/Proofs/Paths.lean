import Mathlib.Order.Defs.Unbundled
import TrafficAnalyzers.FileSystem
/-!
Locations and the paths that show them. Main statement: from a working directory of proper names
every path leads to a location of such names, and they are the parts of the path that shows it.
-/
namespace TrafficAnalyzers

namespace Text

variable {α : Type} [DecidableEq α] {sep : α} {piece : List α}

theorem fields_cons_of_ne {a : α} (h : a ≠ sep) (as : List α) :
    fields sep (a :: as) = (fields sep as).modifyHead (a :: ·) := by
  cases hfields : fields sep as with
  | nil => exact absurd hfields (fields_ne_nil sep as)
  | cons piece pieces => simp [fields, hfields, h]

/-- What has no separator is a piece of its own. -/
theorem fields_of_not_mem (h : sep ∉ piece) : fields sep piece = [piece] := by
  induction piece with
  | nil => rfl
  | cons a piece ih =>
    rw [List.mem_cons, not_or] at h
    rw [fields_cons_of_ne (Ne.symm h.1), ih h.2]
    rfl

/-- The first separator ends the first piece. -/
theorem fields_append_cons (h : sep ∉ piece) (as : List α) :
    fields sep (piece ++ sep :: as) = piece :: fields sep as := by
  induction piece with
  | nil => exact fields_cons_self sep as
  | cons a piece ih =>
    rw [List.mem_cons, not_or] at h
    rw [List.cons_append, fields_cons_of_ne (Ne.symm h.1), ih h.2]
    rfl

theorem not_mem_of_mem_fields {as : List α} (h : piece ∈ fields sep as) : sep ∉ piece := by
  induction as generalizing piece with
  | nil =>
    rw [List.mem_singleton.mp h]
    exact List.not_mem_nil
  | cons a as ih =>
    by_cases ha : a = sep
    · rw [ha, fields_cons_self] at h
      rcases List.mem_cons.mp h with rfl | h
      · exact List.not_mem_nil
      · exact ih h
    · rw [fields_cons_of_ne ha] at h
      cases hfields : fields sep as with
      | nil => exact absurd hfields (fields_ne_nil sep as)
      | cons first rest =>
        rw [hfields, List.modifyHead_cons] at h
        rw [hfields] at ih
        rcases List.mem_cons.mp h with rfl | h
        · rw [List.mem_cons, not_or]
          exact ⟨Ne.symm ha, ih List.mem_cons_self⟩
        · exact ih (List.mem_cons_of_mem first h)

/-- Names with a separator before each of them are the pieces after the first. -/
theorem fields_append_flatMap {names : List (List α)} (hpiece : sep ∉ piece)
    (hnames : ∀ name ∈ names, sep ∉ name) :
    fields sep (piece ++ names.flatMap (sep :: ·)) = piece :: names := by
  induction names generalizing piece with
  | nil => rw [List.flatMap_nil, List.append_nil, fields_of_not_mem hpiece]
  | cons name names ih =>
    rw [List.flatMap_cons, List.cons_append, fields_append_cons hpiece,
      ih (hnames name List.mem_cons_self) fun n hn => hnames n (List.mem_cons_of_mem name hn)]

end Text

/-- What a file may be called. -/
structure Name.Proper (name : Name) : Prop where
  nonempty : name ≠ []
  no_slash : slash ∉ name
  not_dot : name ≠ [dot]
  not_dots : name ≠ [dot, dot]

instance (name : Name) : Decidable name.Proper :=
  decidable_of_iff (name ≠ [] ∧ slash ∉ name ∧ name ≠ [dot] ∧ name ≠ [dot, dot])
    ⟨fun ⟨h₁, h₂, h₃, h₄⟩ => ⟨h₁, h₂, h₃, h₄⟩, fun ⟨h₁, h₂, h₃, h₄⟩ => ⟨h₁, h₂, h₃, h₄⟩⟩

namespace Location

instance : IsStrictTotalOrder Location (· < ·) where
  irrefl l := Std.Irrefl.irrefl (r := (· < ·)) l.names
  trans _ _ _ := IsTrans.trans (α := List Name) (r := (· < ·)) _ _ _
  trichotomous _ _ hlt hgt := congrArg mk
    (Std.Trichotomous.trichotomous (α := List Name) (r := (· < ·)) _ _ hlt hgt)

/-- All names are those of files. -/
def Proper (l : Location) : Prop := ∀ name ∈ l.names, name.Proper

instance (l : Location) : Decidable l.Proper := inferInstanceAs (Decidable (∀ name ∈ l.names, _))

variable {place : List Name}

theorem proper_root : Proper ⟨[]⟩ := fun _ h => absurd h List.not_mem_nil

theorem Proper.up (h : Proper ⟨place⟩) : Proper ⟨place.dropLast⟩ :=
  fun name hname => h name (List.dropLast_subset _ hname)

theorem Proper.down (h : Proper ⟨place⟩) {name : Name} (hname : name.Proper) :
    Proper ⟨place ++ [name]⟩ := by
  intro n hn
  rcases List.mem_append.mp hn with hn | hn
  · exact h n hn
  · rwa [List.mem_singleton.mp hn]

/-- The path that shows a location has its names as its parts. -/
theorem Proper.parts_path {l : Location} (h : l.Proper) : l.path.parts = l.names := by
  have hkept : l.names.filter (fun piece => !piece.isEmpty && piece != [dot]) = l.names := by
    rw [List.filter_eq_self]
    intro name hname
    simp [(h name hname).nonempty, (h name hname).not_dot]
  by_cases hroot : l.names = []
  · rw [path, hroot]
    rfl
  · have hfields : Text.fields slash (l.names.flatMap (slash :: ·)) = [] :: l.names :=
      Text.fields_append_flatMap List.not_mem_nil fun name hname => (h name hname).no_slash
    rw [path, if_neg (by simpa using hroot), Path.parts, hfields]
    exact hkept

end Location

/-- Down one goes to what a file may be called. -/
def Stride.Proper : Stride → Prop
  | .down name => name.Proper
  | _ => True

theorem Path.proper_of_mem_strides {p : Path} {stride : Stride} (h : stride ∈ p.strides) :
    stride.Proper := by
  obtain ⟨piece, hpiece, rfl⟩ := List.mem_map.mp h
  unfold Stride.ofPiece
  split
  · trivial
  split
  · trivial
  split
  · trivial
  · exact ⟨‹_›, Text.not_mem_of_mem_fields hpiece, ‹_›, ‹_›⟩

namespace FileSystem

def Target.location : Target → Location
  | .found place _ => ⟨place⟩
  | .free place => ⟨place⟩

/-- From a proper location and along proper strides it leads to proper locations. -/
def LeadsProperly (follow : List Name → List Stride → Except IoError Target) : Prop :=
  ∀ {place strides target}, Location.Proper ⟨place⟩ → (∀ stride ∈ strides, stride.Proper) →
    follow place strides = .ok target → target.location.Proper

variable {root : Dir} {purpose : Purpose}

theorem leadsProperly_advance {follow : List Name → List Stride → Except IoError Target}
    (hfollow : LeadsProperly follow) (node : Node) :
    LeadsProperly fun place strides => advance root purpose follow place node strides := by
  intro place strides target hplace hstrides h
  dsimp only at h
  fun_induction advance root purpose follow place node strides with
  | case1 place node =>
    obtain rfl := Except.ok.inj h
    exact hplace
  | case2 place entries strides ih | case3 place entries strides ih =>
    exact ih hplace (List.forall_mem_cons.mp hstrides).2 h
  | case4 place entries strides node _ ih =>
    exact ih hplace.up (List.forall_mem_cons.mp hstrides).2 h
  | case8 place entries strides name =>
    obtain rfl := Except.ok.inj h
    exact hplace.down (hstrides _ List.mem_cons_self)
  | case10 place entries strides name _ _ _ _ link =>
    -- A link's own path starts anew, and its strides come before the rest.
    refine hfollow ?_ (fun stride hstride => ?_) h
    · split
      · exact Location.proper_root
      · exact hplace
    · rcases List.mem_append.mp hstride with hlink | hrest
      · exact Path.proper_of_mem_strides hlink
      · exact hstrides _ (List.mem_cons_of_mem _ hrest)
  | case11 place entries strides name _ _ _ _ node _ _ ih =>
    exact ih (hplace.down (hstrides _ List.mem_cons_self))
      (List.forall_mem_cons.mp hstrides).2 h
  | case5 | case6 | case7 | case9 | case12 => contradiction

theorem leadsProperly_start {follow : List Name → List Stride → Except IoError Target}
    (hfollow : LeadsProperly follow) : LeadsProperly (walk.start root purpose follow) := by
  intro place strides target hplace hstrides h
  unfold walk.start at h
  split at h
  · exact leadsProperly_advance hfollow _ hplace hstrides h
  · contradiction

/-- However many links it may lead through, a walk keeps to proper locations. -/
theorem leadsProperly_walk (links : Nat) : LeadsProperly (walk root purpose links) := by
  induction links with
  | zero => exact leadsProperly_start fun _ _ h => by contradiction
  | succ links ih => exact leadsProperly_start ih

/-- From a proper working directory every path that denotes something denotes a proper location. -/
theorem proper_canonicalize {fs : FileSystem} (hfs : fs.workingDirectory.Proper) {p : Path}
    {l : Location} (h : fs.canonicalize p = .ok l) : l.Proper := by
  have hplace : Location.Proper ⟨if p.isAbsolute then [] else fs.workingDirectory.names⟩ := by
    split
    · exact Location.proper_root
    · exact hfs
  unfold canonicalize resolve at h
  cases htarget : fs.target .locating p with
  | error e =>
    rw [htarget] at h
    contradiction
  | ok aim =>
    have hproper : aim.location.Proper := by
      unfold target at htarget
      dsimp only at htarget
      split at htarget
      · contradiction
      split at htarget
      · contradiction
      · exact leadsProperly_walk linkLimit hplace (fun _ => Path.proper_of_mem_strides) htarget
    rw [htarget] at h
    cases aim with
    | found place node =>
      obtain rfl := Except.ok.inj h
      exact hproper
    | free place => contradiction

end FileSystem

end TrafficAnalyzers
