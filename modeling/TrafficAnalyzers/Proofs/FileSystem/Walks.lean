import TrafficAnalyzers.Proofs.FileSystem.Trees
/-!
Reading a path that goes on where another one ends. Main statement: what is reached by names from a
directory that a path denotes is what the path of those names denotes, if no link is at its end.
-/
namespace TrafficAnalyzers.FileSystem

variable {root : Dir} {purpose : Purpose}

/-- What holds of a walk if it holds of those that follow its links holds of every walk. -/
theorem walk_induct {motive : (List Name → List Stride → Except IoError Target) → Prop}
    (stop : motive fun _ _ => .error .tooManyLinks)
    (start : ∀ follow, motive follow → motive (walk.start root purpose follow)) (links : Nat) :
    motive (walk root purpose links) := by
  induction links with
  | zero => exact start _ stop
  | succ links ih => exact start _ ih

/-- It finds proper nodes only, wherever it starts. -/
def FindsProper (follow : List Name → List Stride → Except IoError Target) : Prop :=
  ∀ place strides place' node, follow place strides = .ok (.found place' node) → node.Proper

theorem findsProper_advance (hroot : root.Proper)
    {follow : List Name → List Stride → Except IoError Target} (hfollow : FindsProper follow)
    {place place' : List Name} {node node' : Node} {strides : List Stride} (hnode : node.Proper)
    (h : advance root purpose follow place node strides = .ok (.found place' node')) :
    node'.Proper := by
  fun_induction advance root purpose follow place node strides with
  | case1 place node =>
    obtain ⟨-, rfl⟩ := Target.found.inj (Except.ok.inj h)
    exact hnode
  | case2 place entries strides ih | case3 place entries strides ih => exact ih hnode h
  | case4 place entries strides node hup ih => exact ih (hroot.descend hup).1 h
  | case10 => exact hfollow _ _ _ _ h
  | case11 place entries strides name _ _ _ _ node _ hthere ih => exact ih (hnode.get? hthere).2 h
  | case5 | case6 | case7 | case8 | case9 | case12 => simp at h

/-- What a walk finds in a proper tree is proper. -/
theorem findsProper_walk (hroot : root.Proper) (links : Nat) :
    FindsProper (walk root purpose links) := by
  refine walk_induct (fun _ _ _ _ h => by contradiction) (fun follow hfollow => ?_) links
  intro place strides place' node h
  unfold walk.start at h
  split at h
  next first hfirst => exact findsProper_advance hroot hfollow (hroot.descend hfirst).1 h
  next => contradiction

/-- What comes of going on, `goOn` by name, after strides that came to `before`: either they have
found something and one goes on from there, or one cannot go on at all. -/
inductive Continues (root : Dir) (before : Except IoError Target)
    (goOn : List Stride → Except IoError Target) : Prop
  | found (follow : List Name → List Stride → Except IoError Target) {place : List Name}
      {node : Node} : before = .ok (.found place node) →
      (∀ rest, goOn rest = advance root .reading follow place node rest) →
      Continues root before goOn
  | stuck : (∀ place node, before ≠ .ok (.found place node)) →
      (∀ rest, rest ≠ [] → ∃ e, goOn rest = .error e) → Continues root before goOn

theorem Continues.of_error {before : Except IoError Target} {e : IoError}
    {goOn : List Stride → Except IoError Target} (hbefore : before = .error e)
    (hgoOn : ∀ rest, ∃ e, goOn rest = .error e) : Continues root before goOn := by
  refine .stuck (fun place node hfound => ?_) fun rest _ => hgoOn rest
  rw [hbefore] at hfound
  contradiction

/-- What it comes to, it can be continued from there. -/
def Resumes (root : Dir) (follow : List Name → List Stride → Except IoError Target) : Prop :=
  ∀ place strides,
    Continues root (follow place strides) fun rest => follow place (strides ++ rest)

theorem continues_advance {follow : List Name → List Stride → Except IoError Target}
    (hfollow : Resumes root follow) (place : List Name) (node : Node) (strides : List Stride) :
    Continues root (advance root .reading follow place node strides) fun rest =>
      advance root .reading follow place node (strides ++ rest) := by
  induction strides generalizing place node with
  | nil => exact .found follow rfl fun _ => rfl
  | cons stride strides ih =>
    cases node with
    | file | link => exact .of_error rfl fun _ => ⟨_, rfl⟩
    | dir entries =>
      cases stride with
      | gap | here => exact ih place (.dir entries)
      | up =>
        simp only [List.cons_append, advance]
        cases root.descend place.dropLast with
        | none => exact .of_error rfl fun _ => ⟨_, rfl⟩
        | some node => exact ih place.dropLast node
      | down name =>
        simp only [List.cons_append, advance, Purpose.refusal?]
        by_cases hlong : nameLimit < name.length
        · simp only [if_pos hlong]
          exact .of_error rfl fun _ => ⟨_, rfl⟩
        · simp only [if_neg hlong]
          cases entries.get? name with
          | none =>
            refine .stuck (fun place node => ?_) fun rest hrest => ⟨.notFound, ?_⟩
            · dsimp only
              split <;> simp
            · simp [hrest]
          | some there =>
            cases there with
            | file | dir => exact ih (place ++ [name]) _
            | link target =>
              have hlink := hfollow (if target.isAbsolute then [] else place)
                (target.strides ++ strides)
              simpa only [List.append_assoc] using hlink

/-- A walk can be continued where it ends. -/
theorem resumes_walk (links : Nat) : Resumes root (walk root .reading links) := by
  refine walk_induct (fun _ _ => .of_error rfl fun _ => ⟨_, rfl⟩) (fun follow hfollow => ?_) links
  intro place strides
  unfold walk.start
  cases root.descend place with
  | none => exact .of_error rfl fun _ => ⟨_, rfl⟩
  | some node => exact continues_advance hfollow place node strides

/-- Down through directories one comes to what is there, unless it is a link. -/
theorem advance_down {follow : List Name → List Stride → Except IoError Target} {d : Dir}
    (hd : d.Proper) {names : List Name} {node : Node} (h : d.descend names = some node)
    (hnode : ∀ target, node ≠ .link target) (place : List Name) :
    advance root .reading follow place (.dir d) (names.map .down) =
      .ok (.found (place ++ names) node) := by
  induction names generalizing d place with
  | nil =>
    obtain rfl := Option.some.inj h
    simp [advance]
  | cons name names ih =>
    rw [Dir.descend_cons] at h
    obtain ⟨there, hthere, hrest⟩ := Option.bind_eq_some_iff.mp h
    obtain ⟨hname, hproper⟩ := hd.get? hthere
    have hshort : ¬ nameLimit < name.length := Nat.not_lt.mpr hname.short
    simp only [List.map_cons, advance, Purpose.refusal?, if_neg hshort, hthere]
    cases there with
    | dir entries =>
      have hdown := ih hproper hrest (place ++ [name])
      simpa using hdown
    | file content =>
      cases names with
      | cons => contradiction
      | nil =>
        obtain rfl := Option.some.inj hrest
        simp [advance]
    | link target =>
      cases names with
      | cons => contradiction
      | nil => exact absurd (Option.some.inj hrest).symm (hnode target)

/-- Where a path is read from. -/
def origin (fs : FileSystem) (p : Path) : List Name :=
  if p.isAbsolute then [] else fs.workingDirectory.names

variable {fs : FileSystem} {p base : Path} {d : Dir}

/-- A path that can be asked for. -/
structure Askable (p : Path) : Prop where
  no_nul : 0 ∉ p.bytes
  nonempty : p.bytes ≠ []
  short : p.bytes.length < pathLimit

theorem Askable.access_eq (h : Askable p) : fs.access p =
    match walk fs.root .reading linkLimit (fs.origin p) p.strides with
    | .ok (.found _ node) => .ok node
    | .ok (.free _) => .error .notFound
    | .error e => .error e := by
  have hnul : p.bytes.contains 0 = false := by simpa using h.no_nul
  have hshort : ¬ pathLimit ≤ p.bytes.length := Nat.not_le.mpr h.short
  have hempty : p.bytes.isEmpty = false := by simpa using h.nonempty
  simp only [access, hnul, hshort, resolve, target, hempty, Bool.false_eq_true, ↓reduceIte, origin]
  split <;> simp_all [Except.map]

/-- Nothing is denoted by any other path. -/
theorem askable_of_access {node : Node} (h : fs.access p = .ok node) : Askable p := by
  unfold access at h
  split at h
  next => contradiction
  next hnul =>
    split at h
    next => contradiction
    next hshort =>
      refine ⟨by simpa using hnul, fun hempty => ?_, Nat.not_le.mp hshort⟩
      simp [resolve, target, hempty, Except.map] at h

theorem access_of_dir? (h : fs.dir? p = some d) : fs.access p = .ok (.dir d) := by
  unfold dir? at h
  split at h
  next entries hentries => rw [hentries, Option.some.inj h]
  next => contradiction

theorem askable_of_dir? (h : fs.dir? p = some d) : Askable p := askable_of_access (access_of_dir? h)

theorem walk_of_dir? (h : fs.dir? p = some d) : ∃ place,
    walk fs.root .reading linkLimit (fs.origin p) p.strides = .ok (.found place (.dir d)) := by
  have haccess := access_of_dir? h
  rw [(askable_of_dir? h).access_eq] at haccess
  split at haccess
  next place node hwalk =>
    obtain rfl := Except.ok.inj haccess
    exact ⟨place, hwalk⟩
  next => contradiction
  next => contradiction

/-- In a proper tree a path denotes a proper directory. -/
theorem proper_of_dir? (hfs : fs.root.Proper) (h : fs.dir? p = some d) : d.Proper := by
  obtain ⟨place, hwalk⟩ := walk_of_dir? h
  exact findsProper_walk hfs linkLimit _ _ _ _ hwalk

/-- From a directory that a path denotes, one goes on as the path would. -/
theorem walk_approach (h : fs.dir? base = some d) : ∃ follow place, ∀ strides,
    walk fs.root .reading linkLimit (fs.origin base) (base.approach ++ strides) =
      advance fs.root .reading follow place (.dir d) strides := by
  obtain ⟨end_, hwalk⟩ := walk_of_dir? h
  rw [base.strides_approach] at hwalk
  have hresumes : Resumes fs.root (walk fs.root .reading linkLimit) := resumes_walk linkLimit
  by_cases hslash : base.endsInSlash = true
  · rw [if_pos hslash] at hwalk
    cases hresumes (fs.origin base) base.approach with
    | stuck _ hstuck =>
      obtain ⟨e, he⟩ := hstuck [.gap] (List.cons_ne_nil _ _)
      rw [he] at hwalk
      contradiction
    | @found follow place node _ hgoOn =>
      -- The slash at the end asks for a directory.
      rw [hgoOn] at hwalk
      cases node with
      | file | link => contradiction
      | dir entries =>
        obtain ⟨-, hentries⟩ := Target.found.inj (Except.ok.inj hwalk)
        exact ⟨follow, place, fun strides => hentries ▸ hgoOn strides⟩
  · rw [if_neg hslash, List.append_nil] at hwalk
    cases hresumes (fs.origin base) base.approach with
    | stuck hnot => exact absurd hwalk (hnot _ _)
    | @found follow place node hfound hgoOn =>
      obtain ⟨-, hnode⟩ := Target.found.inj (Except.ok.inj (hfound.symm.trans hwalk))
      exact ⟨follow, place, fun strides => hnode ▸ hgoOn strides⟩

variable {names : List Name} {node : Node}

theorem Askable.children (hbase : Askable base) (hnames : ∀ n ∈ names, n.Storable)
    (hne : names ≠ []) (hshort : (base.children names).bytes.length < pathLimit) :
    Askable (base.children names) := by
  have hbytes := Path.bytes_children hbase.nonempty (fun n hn => (hnames n hn).toProper) hne
  constructor
  · rw [hbytes, List.mem_append, List.mem_flatMap]
    rintro (hstem | ⟨n, hn, hzero⟩)
    · exact hbase.no_nul (Path.stem_subset base hstem)
    · rcases List.mem_cons.mp hzero with hslash | hname
      · exact absurd hslash (by decide)
      · exact (hnames n hn).no_nul hname
  · obtain ⟨name, rest, rfl⟩ := List.exists_cons_of_ne_nil hne
    simp [hbytes]
  · exact hshort

/-- What is reached by names from a directory is what the path of these names denotes. -/
theorem access_children (hfs : fs.root.Proper) (h : fs.dir? base = some d) (hne : names ≠ [])
    (hnode : d.descend names = some node) (hlink : ∀ target, node ≠ .link target)
    (hshort : (base.children names).bytes.length < pathLimit) :
    fs.access (base.children names) = .ok node := by
  have hd := proper_of_dir? hfs h
  have hbase := askable_of_dir? h
  have hnames := (hd.descend hnode).2
  have hproper (n : Name) (hn : n ∈ names) : n.Proper := (hnames n hn).toProper
  have horigin : fs.origin (base.children names) = fs.origin base := by
    rw [origin, Path.isAbsolute_children hbase.nonempty hproper hne, origin]
  obtain ⟨follow, place, hwalk⟩ := walk_approach h
  rw [(hbase.children hnames hne hshort).access_eq, horigin,
    Path.strides_children hbase.nonempty hproper hne, hwalk, advance_down hd hnode hlink]

theorem short_of_isFile (h : fs.isFile p = true) : p.bytes.length < pathLimit := by
  unfold isFile at h
  split at h
  next hfile => exact (askable_of_access hfile).short
  next => contradiction

/-- A file below a directory is found by its path, unless that is too long. -/
theorem isFile_children_file (hfs : fs.root.Proper) (h : fs.dir? base = some d) {content : Content}
    (hfile : d.descend names = some (.file content)) :
    fs.isFile (base.children names) = true ↔ (base.children names).bytes.length < pathLimit := by
  refine ⟨short_of_isFile, fun hshort => ?_⟩
  have hne : names ≠ [] := by
    rintro rfl
    simp [Dir.descend] at hfile
  rw [isFile, access_children hfs h hne hfile (by simp) hshort]

/-- A directory is no file, whatever its name. -/
theorem isFile_children_dir (hfs : fs.root.Proper) (h : fs.dir? base = some d) (hne : names ≠ [])
    {entries : Dir} (hdir : d.descend names = some (.dir entries)) :
    fs.isFile (base.children names) = false := by
  cases hfile : fs.isFile (base.children names) with
  | false => rfl
  | true =>
    rw [isFile, access_children hfs h hne hdir (by simp) (short_of_isFile hfile)] at hfile
    contradiction

end TrafficAnalyzers.FileSystem
