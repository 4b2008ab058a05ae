import TrafficAnalyzers.Proofs.Paths
/-!
The paths of what is reached from a directory by names. Main statement: the path tells the names,
and its strides are those of the directory and then one down for each of them.
-/
namespace TrafficAnalyzers

namespace Text

variable {α : Type} [DecidableEq α] {sep : α}

/-- A separator parts the pieces before it from those after it. -/
theorem fields_append_sep (as bs : List α) :
    fields sep (as ++ sep :: bs) = fields sep as ++ fields sep bs := by
  induction as with
  | nil => exact fields_cons_self sep bs
  | cons a as ih =>
    by_cases ha : a = sep
    · rw [ha, List.cons_append, fields_cons_self, fields_cons_self, ih]
      rfl
    · rw [List.cons_append, fields_cons_of_ne ha, fields_cons_of_ne ha, ih]
      cases hfields : fields sep as with
      | nil => exact absurd hfields (fields_ne_nil sep as)
      | cons piece pieces => rfl

theorem fields_append_names (as : List α) {names : List (List α)}
    (hnames : ∀ name ∈ names, sep ∉ name) :
    fields sep (as ++ names.flatMap (sep :: ·)) = fields sep as ++ names := by
  cases names with
  | nil => simp
  | cons name names =>
    rw [List.flatMap_cons, List.cons_append, fields_append_sep,
      fields_append_flatMap (hnames name List.mem_cons_self)
        fun n hn => hnames n (List.mem_cons_of_mem name hn)]

end Text

theorem Name.Proper.ofPiece {name : Name} (h : name.Proper) : Stride.ofPiece name = .down name := by
  unfold Stride.ofPiece
  rw [if_neg h.nonempty, if_neg h.not_dot, if_neg h.not_dots]

namespace Path

/-- The path of what is reached by names, one after the other. -/
def children (p : Path) (names : List Name) : Path := names.foldl child p

/-- The bytes but for a slash at the end. -/
def stem (p : Path) : List UInt8 := if p.endsInSlash then p.bytes.dropLast else p.bytes

theorem stem_subset (p : Path) : p.stem ⊆ p.bytes := by
  unfold stem
  split
  · exact List.dropLast_subset _
  · exact List.Subset.refl _

variable {p : Path} {name : Name} {names : List Name}

theorem stem_of_slash (h : p.endsInSlash = true) : p.bytes = p.stem ++ [slash] := by
  have hlast : p.bytes.getLast? = some slash := by simpa [endsInSlash] using h
  obtain ⟨before, hbytes⟩ := List.getLast?_eq_some_iff.mp hlast
  rw [stem, if_pos h, hbytes, List.dropLast_concat]

theorem bytes_child (hp : p.bytes ≠ []) (hname : name.Proper) :
    (p.child name).bytes = p.stem ++ slash :: name := by
  have hrelative : (⟨name⟩ : Path).isAbsolute = false := by
    cases name with
    | nil => rfl
    | cons b bs =>
      have hb : b ≠ slash := fun h => hname.no_slash (h ▸ List.mem_cons_self)
      simp [isAbsolute, hb]
  rw [child, join, if_neg (by simp [hrelative, hp])]
  split
  next hslash =>
    dsimp only
    rw [stem_of_slash hslash, List.append_assoc]
    rfl
  next hslash => rw [stem, if_neg hslash]

theorem stem_child (hp : p.bytes ≠ []) (hname : name.Proper) :
    (p.child name).stem = p.stem ++ slash :: name := by
  have hend : (p.child name).endsInSlash = false := by
    rw [endsInSlash, bytes_child hp hname]
    obtain ⟨last, hlast⟩ := List.getLast?_isSome.mpr hname.nonempty |> Option.isSome_iff_exists.mp
    have hne : last ≠ slash := fun h => hname.no_slash (h ▸ List.mem_of_getLast? hlast)
    simp [List.getLast?_append, List.getLast?_cons, hlast, hne]
  rw [stem, hend, if_neg Bool.false_ne_true, bytes_child hp hname]

theorem bytes_children (hp : p.bytes ≠ []) (hnames : ∀ name ∈ names, Name.Proper name)
    (hne : names ≠ []) : (p.children names).bytes = p.stem ++ names.flatMap (slash :: ·) := by
  induction names generalizing p with
  | nil => contradiction
  | cons name names ih =>
    have hname := hnames name List.mem_cons_self
    have hchild := bytes_child hp hname
    cases names with
    | nil => simpa [children] using hchild
    | cons next rest =>
      have hrest := ih (p := p.child name) (by simp [hchild])
        (fun n hn => hnames n (List.mem_cons_of_mem name hn)) (List.cons_ne_nil _ _)
      rw [stem_child hp hname] at hrest
      simpa [children] using hrest

/-- Different names lead to different paths. -/
theorem children_inj {names' : List Name} (hp : p.bytes ≠ [])
    (hnames : ∀ name ∈ names, Name.Proper name) (hne : names ≠ [])
    (hnames' : ∀ name ∈ names', Name.Proper name) (hne' : names' ≠ [])
    (h : p.children names = p.children names') : names = names' := by
  have hbytes := congrArg bytes h
  rw [bytes_children hp hnames hne, bytes_children hp hnames' hne'] at hbytes
  have htail := congrArg (Text.fields slash) (List.append_cancel_left hbytes)
  have hfields {l : List Name} (hl : ∀ name ∈ l, Name.Proper name) :
      Text.fields slash (l.flatMap (slash :: ·)) = [] :: l :=
    Text.fields_append_names [] fun n hn => (hl n hn).no_slash
  rw [hfields hnames, hfields hnames'] at htail
  exact (List.cons.inj htail).2

theorem fields_children (hp : p.bytes ≠ []) (hnames : ∀ name ∈ names, Name.Proper name)
    (hne : names ≠ []) :
    Text.fields slash (p.children names).bytes = Text.fields slash p.stem ++ names := by
  rw [bytes_children hp hnames hne]
  exact Text.fields_append_names _ fun n hn => (hnames n hn).no_slash

/-- The last name is the file name. -/
theorem extension?_children (hp : p.bytes ≠ [])
    (hnames : ∀ n ∈ names ++ [name], Name.Proper n) :
    (p.children (names ++ [name])).extension? = nameExtension? name := by
  have hname := hnames name (List.mem_append_right names List.mem_cons_self)
  have hkept : List.filter (fun piece => !piece.isEmpty && piece != [dot]) [name] = [name] := by
    simp [hname.nonempty, hname.not_dot]
  have hparts : (p.children (names ++ [name])).parts.getLast? = some name := by
    rw [parts, fields_children hp hnames (by simp), ← List.append_assoc, List.filter_append, hkept,
      List.getLast?_concat]
  rw [extension?, fileName?, hparts]
  simp [Option.filter, hname.not_dots]

/-- The strides to the directory, but for the gap that a slash at its end makes. -/
def approach (p : Path) : List Stride := (Text.fields slash p.stem).map Stride.ofPiece

theorem strides_approach (p : Path) :
    p.strides = p.approach ++ if p.endsInSlash then [.gap] else [] := by
  by_cases hslash : p.endsInSlash = true
  · rw [if_pos hslash, strides, stem_of_slash hslash, Text.fields_append_sep, List.map_append]
    rfl
  · rw [if_neg hslash, List.append_nil, approach, stem, if_neg hslash, strides]

theorem strides_children (hp : p.bytes ≠ []) (hnames : ∀ name ∈ names, Name.Proper name)
    (hne : names ≠ []) : (p.children names).strides = p.approach ++ names.map .down := by
  rw [strides, fields_children hp hnames hne, List.map_append, approach]
  congr 1
  exact List.map_congr_left fun n hn => (hnames n hn).ofPiece

theorem isAbsolute_children (hp : p.bytes ≠ []) (hnames : ∀ name ∈ names, Name.Proper name)
    (hne : names ≠ []) : (p.children names).isAbsolute = p.isAbsolute := by
  obtain ⟨name, rest, rfl⟩ := List.exists_cons_of_ne_nil hne
  have hhead : p.stem.head?.or (some slash) = p.bytes.head? := by
    by_cases hslash : p.endsInSlash = true
    · rw [stem_of_slash hslash, List.head?_append]
      rfl
    · obtain ⟨b, bs, hbytes⟩ := List.exists_cons_of_ne_nil hp
      rw [stem, if_neg hslash, hbytes]
      rfl
  rw [isAbsolute, bytes_children hp hnames hne, List.head?_append, isAbsolute, ← hhead]
  rfl

end Path

end TrafficAnalyzers
