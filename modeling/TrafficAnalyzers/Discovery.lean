import TrafficAnalyzers.FileSystem
import TrafficAnalyzers.Op
import TrafficAnalyzers.SearchPath
/-!
Finding module files: the files with the module extension below each directory of a list. The search
goes down through directories but not through links; a link to a file counts as a file.
-/
namespace TrafficAnalyzers

/-- The paths of all entries below a directory, a directory's own entries right after it. -/
def Dir.pathsBelow (base : Path) : Dir → List Path
  | .empty => []
  | .file name _ rest => base.child name :: pathsBelow base rest
  | .link name _ rest => base.child name :: pathsBelow base rest
  | .dir name entries rest =>
    base.child name :: (pathsBelow (base.child name) entries ++ pathsBelow base rest)

/-- The topmost directories below a directory whose paths are too long to list them. -/
def Dir.tooDeep (base : Path) : Dir → List Path
  | .empty => []
  | .file _ _ rest => tooDeep base rest
  | .link _ _ rest => tooDeep base rest
  | .dir name entries rest =>
    let path := base.child name
    (if FileSystem.pathLimit ≤ path.bytes.length then [path] else tooDeep path entries)
      ++ tooDeep base rest

namespace Discovery

/-- A file, itself or through links, with the extension that modules have. -/
def isModule (fs : FileSystem) (extension : String) (p : Path) : Bool :=
  p.extension? = some (Text.Utf8.encode extension.toList) && fs.isFile p

/-- The module files below one directory; what is no directory has none. -/
def below (fs : FileSystem) (extension : String) (base : Path) : List Path :=
  match fs.dir? base with
  | none => []
  | some entries => (entries.pathsBelow base).filter (isModule fs extension)

variable {σ : Type}

def warnUnlisted (dir : String) (p : Path) : Op σ Unit :=
  let cause := s!"IO error for operation on {p.text}: {IoError.nameTooLong.message}"
  .emit (.log .warn s!"Failed to read entry below {dir}: {cause}")

def searchDirectory (fs : FileSystem) (extension dir : String) : Op σ (List Path) := do
  let base := Path.ofString dir
  match fs.dir? base with
  | some entries => do
    .debug s!"Searching {dir} for *.{extension}"
    (entries.tooDeep base).forM (warnUnlisted dir)
  | none => .debug s!"Module directory {dir} does not exist, skipping"
  pure (below fs extension base)

/-- The module files below the directories of a list, in the order of the list. -/
def search (fs : FileSystem) (extension paths : String) : Op σ (List Path) :=
  List.flatten <$> (SearchPath.entries paths).mapM (searchDirectory fs extension)

/-- The same for several lists. -/
def searchAll (fs : FileSystem) (extension : String) (lists : List String) : Op σ (List Path) :=
  List.flatten <$> lists.mapM (search fs extension)

end Discovery

end TrafficAnalyzers
