import Mathlib.Data.List.Nodup
import TrafficAnalyzers.Discovery
import TrafficAnalyzers.Proofs.Paths.Children
/-!
The tree of a file system, as the names by which its entries are reached. Main statement: a listing
of all that is below a directory has the path of each entry once.
-/
namespace TrafficAnalyzers

/-- A name under which a file can be stored. -/
structure Name.Storable (name : Name) : Prop extends name.Proper where
  no_nul : 0 ∉ name
  short : name.length ≤ FileSystem.nameLimit

instance (name : Name) : Decidable name.Storable :=
  decidable_of_iff (name.Proper ∧ 0 ∉ name ∧ name.length ≤ FileSystem.nameLimit)
    ⟨fun ⟨h₁, h₂, h₃⟩ => ⟨h₁, h₂, h₃⟩, fun h => ⟨h.toProper, h.no_nul, h.short⟩⟩

/-- In this directory and below, names can be stored and no name is there twice. -/
def Dir.Proper : Dir → Prop
  | .empty => True
  | .file name _ rest => name.Storable ∧ (rest.get? name).isNone ∧ rest.Proper
  | .link name _ rest => name.Storable ∧ (rest.get? name).isNone ∧ rest.Proper
  | .dir name entries rest =>
    name.Storable ∧ (rest.get? name).isNone ∧ entries.Proper ∧ rest.Proper

def Dir.decideProper : (d : Dir) → Decidable d.Proper
  | .empty => inferInstanceAs (Decidable True)
  | .file name _ rest =>
    have := rest.decideProper
    inferInstanceAs (Decidable (name.Storable ∧ (rest.get? name).isNone ∧ rest.Proper))
  | .link name _ rest =>
    have := rest.decideProper
    inferInstanceAs (Decidable (name.Storable ∧ (rest.get? name).isNone ∧ rest.Proper))
  | .dir name entries rest =>
    have := entries.decideProper
    have := rest.decideProper
    inferInstanceAs
      (Decidable (name.Storable ∧ (rest.get? name).isNone ∧ entries.Proper ∧ rest.Proper))

instance (d : Dir) : Decidable d.Proper := d.decideProper

/-- The names by which what is below a directory is reached from it, in the order of listing. -/
def Dir.trails : Dir → List (List Name)
  | .empty => []
  | .file name _ rest => [name] :: rest.trails
  | .link name _ rest => [name] :: rest.trails
  | .dir name entries rest => ([] :: entries.trails).map (name :: ·) ++ rest.trails

namespace Node

def Proper : Node → Prop
  | .dir entries => entries.Proper
  | .file _ | .link _ => True

/-- What is found by going down from a node. -/
def descend : Node → List Name → Option Node
  | .dir entries, names => entries.descend names
  | node, [] => some node
  | _, _ :: _ => none

/-- The names that lead from a node to itself and to all that is below it. -/
def trails : Node → List (List Name)
  | .dir entries => [] :: entries.trails
  | .file _ | .link _ => [[]]

end Node

namespace Dir

/-- Entry by entry, and into the directories among them. -/
theorem induct {motive : Dir → Prop} (empty : motive .empty)
    (entry : ∀ name node rest, (∀ entries, node = .dir entries → motive entries) → motive rest →
      motive (consNode name node rest)) (d : Dir) : motive d := by
  induction d with
  | empty => exact empty
  | file name content rest ih => exact entry name (.file content) rest nofun ih
  | link name target rest ih => exact entry name (.link target) rest nofun ih
  | dir name entries rest ih ih' =>
    refine entry name (.dir entries) rest (fun e he => ?_) ih'
    exact Node.dir.inj he ▸ ih

variable {d rest : Dir} {name : Name} {node : Node} {names : List Name}

theorem get?_consNode (name n : Name) (node : Node) (rest : Dir) :
    (consNode name node rest).get? n = if name = n then some node else rest.get? n := by
  cases node <;> rfl

theorem proper_consNode : (consNode name node rest).Proper ↔
    name.Storable ∧ (rest.get? name).isNone ∧ node.Proper ∧ rest.Proper := by
  cases node with
  | file | link => simp [consNode, Proper, Node.Proper]
  | dir entries => rfl

theorem trails_consNode (name : Name) (node : Node) (rest : Dir) :
    (consNode name node rest).trails = node.trails.map (name :: ·) ++ rest.trails := by
  cases node <;> rfl

theorem descend_cons (d : Dir) (n : Name) (ns : List Name) :
    d.descend (n :: ns) = (d.get? n).bind (·.descend ns) := by
  rw [descend]
  cases d.get? n with
  | none => rfl
  | some node => cases node <;> cases ns <;> rfl

/-- Every name leads somewhere else. -/
theorem descend_consNode (name n : Name) (node : Node) (rest : Dir) (ns : List Name) :
    (consNode name node rest).descend (n :: ns) =
      if name = n then node.descend ns else rest.descend (n :: ns) := by
  rw [descend_cons, get?_consNode]
  split
  · rfl
  · exact (descend_cons rest n ns).symm

theorem Proper.get? (hd : d.Proper) {n : Name} (h : d.get? n = some node) :
    n.Storable ∧ node.Proper := by
  induction d using Dir.induct with
  | empty => contradiction
  | entry name first rest _ ih =>
    obtain ⟨hname, -, hfirst, hrest⟩ := proper_consNode.mp hd
    rw [get?_consNode] at h
    split at h
    next heq =>
      obtain rfl := Option.some.inj h
      exact ⟨heq ▸ hname, hfirst⟩
    next => exact ih hrest h

/-- What is found by going down is proper, and so are the names. -/
theorem Proper.descend (hd : d.Proper) (h : d.descend names = some node) :
    node.Proper ∧ ∀ n ∈ names, n.Storable := by
  induction names generalizing d with
  | nil =>
    obtain rfl := Option.some.inj h
    exact ⟨hd, fun n hn => absurd hn List.not_mem_nil⟩
  | cons n ns ih =>
    rw [descend_cons] at h
    obtain ⟨next, hnext, hrest⟩ := Option.bind_eq_some_iff.mp h
    obtain ⟨hn, hproper⟩ := hd.get? hnext
    cases next with
    | dir entries =>
      obtain ⟨hnode, hns⟩ := ih hproper hrest
      exact ⟨hnode, List.forall_mem_cons.mpr ⟨hn, hns⟩⟩
    | file | link =>
      cases ns with
      | cons => contradiction
      | nil =>
        obtain rfl := Option.some.inj hrest
        exact ⟨trivial, fun n' hn' => List.mem_singleton.mp hn' ▸ hn⟩

/-- What is below is what can be reached by going down. -/
theorem mem_trails (hd : d.Proper) : names ∈ d.trails ↔ names ≠ [] ∧ d.descend names ≠ none := by
  induction d using Dir.induct generalizing names with
  | empty => cases names <;> simp [trails, Dir.descend, Dir.get?]
  | entry name node rest ihnode ihrest =>
    obtain ⟨-, hnew, hnode, hrest⟩ := proper_consNode.mp hd
    rw [trails_consNode, List.mem_append, ihrest hrest]
    cases names with
    | nil => simp
    | cons n ns =>
      rw [descend_consNode]
      by_cases hn : name = n
      · subst hn
        have hlost : rest.descend (name :: ns) = none := by
          rw [descend_cons, Option.isNone_iff_eq_none.mp hnew, Option.bind_none]
        have hbelow : ns ∈ node.trails ↔ node.descend ns ≠ none := by
          cases node with
          | file | link => cases ns <;> simp [Node.trails, Node.descend]
          | dir entries =>
            have ih : ns ∈ entries.trails ↔ ns ≠ [] ∧ entries.descend ns ≠ none :=
              ihnode entries rfl hnode
            cases ns with
            | nil => simp [Node.trails, Node.descend, Dir.descend]
            | cons => simpa [Node.trails, Node.descend] using ih
        simp [hlost, hbelow]
      · simp [hn]

theorem nodup_trails (hd : d.Proper) : d.trails.Nodup := by
  induction d using Dir.induct with
  | empty => exact List.nodup_nil
  | entry name node rest ihnode ihrest =>
    obtain ⟨-, hnew, hnode, hrest⟩ := proper_consNode.mp hd
    rw [trails_consNode]
    have hbelow : node.trails.Nodup := by
      cases node with
      | file | link => exact List.nodup_singleton []
      | dir entries =>
        refine List.nodup_cons.mpr ⟨fun hnil => ?_, ihnode entries rfl hnode⟩
        exact ((mem_trails hnode).mp hnil).1 rfl
    refine (hbelow.map (List.cons_injective)).append (ihrest hrest) ?_
    -- The rest has no entry of this name.
    intro names hnames hrest'
    obtain ⟨ns, -, rfl⟩ := List.mem_map.mp hnames
    apply ((mem_trails hrest).mp hrest').2
    rw [descend_cons, Option.isNone_iff_eq_none.mp hnew, Option.bind_none]

/-- The listing shows where each entry is. -/
theorem pathsBelow_eq (base : Path) (d : Dir) : d.pathsBelow base = d.trails.map base.children := by
  induction d using Dir.induct generalizing base with
  | empty => rfl
  | entry name node rest ihnode ihrest =>
    rw [trails_consNode, List.map_append, ← ihrest]
    cases node with
    | file | link => rfl
    | dir entries =>
      have hbelow : (entries.trails.map (name :: ·)).map base.children =
          entries.pathsBelow (base.child name) := by
        rw [ihnode entries rfl, List.map_map]
        rfl
      rw [consNode, pathsBelow, Node.trails, List.map_cons, List.map_cons, hbelow]
      rfl

/-- A listing has no path twice. -/
theorem nodup_pathsBelow (hd : d.Proper) {base : Path} (hbase : base.bytes ≠ []) :
    (d.pathsBelow base).Nodup := by
  have hnames {names : List Name} (h : names ∈ d.trails) :
      names ≠ [] ∧ ∀ n ∈ names, Name.Proper n := by
    obtain ⟨hne, hfound⟩ := (mem_trails hd).mp h
    obtain ⟨node, hnode⟩ := Option.ne_none_iff_exists'.mp hfound
    exact ⟨hne, fun n hn => ((hd.descend hnode).2 n hn).toProper⟩
  rw [pathsBelow_eq]
  refine (List.nodup_map_iff_inj_on (nodup_trails hd)).mpr fun names h names' h' heq => ?_
  obtain ⟨hne, hproper⟩ := hnames h
  obtain ⟨hne', hproper'⟩ := hnames h'
  exact Path.children_inj hbase hproper hne hproper' hne' heq

theorem mem_pathsBelow (hd : d.Proper) {base p : Path} : p ∈ d.pathsBelow base ↔
    ∃ names node, names ≠ [] ∧ d.descend names = some node ∧ p = base.children names := by
  rw [pathsBelow_eq, List.mem_map]
  simp only [mem_trails hd, Option.ne_none_iff_exists']
  constructor
  · rintro ⟨names, ⟨hne, node, hnode⟩, rfl⟩
    exact ⟨names, node, hne, hnode, rfl⟩
  · rintro ⟨names, node, hne, hnode, rfl⟩
    exact ⟨names, ⟨hne, node, hnode⟩, rfl⟩

end Dir

end TrafficAnalyzers
