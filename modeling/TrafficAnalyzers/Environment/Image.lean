import TrafficAnalyzers.Environment
import TrafficAnalyzers.Json.Reader
/-!
Surroundings described by a JSON document: the working directory, the place of the executable, the
time, and the files, with modules given by their registration scripts.
-/
namespace TrafficAnalyzers

/-- A path without its last part. -/
def Path.directory (p : Path) : Path := ⟨((p.bytes.reverse.dropWhile (· ≠ slash)).drop 1).reverse⟩

/-- The names of an absolute path that is spelled without dots and doubled slashes. -/
def Location.ofPath (p : Path) : Location := ⟨p.parts⟩

namespace FileSystem

/-- Puts an entry where a path leads, and the directories on the way that are missing. -/
def addEntry (fs : FileSystem) (p : Path) (node : Node) : FileSystem :=
  (fs.makeDirs p.directory).put p node

end FileSystem

namespace Environment

/-- What an entry of an image is: the text of a file, the target of a link, the script of a module,
or else a directory. -/
def Image.node? (entry : Json) : Option Node :=
  match entry with
  | .object members =>
    match members.lookup (some "text"), members.lookup (some "link"),
      members.lookup (some "module") with
    | some (.string text), _, _ => some (.file (.data (Text.Utf8.encode text.toList)))
    | _, some (.string target), _ => some (.link (.ofString target))
    | _, _, some json => (Script.ofJson? json).map fun script => .file (.module script)
    | _, _, _ => some (.dir .empty)
  | _ => none

def Image.addEntry (fs : FileSystem) (entry : Json) : Option FileSystem :=
  match entry with
  | .object members => do
    let path : String ← Coded.decode (← members.lookup (some "path"))
    match ← Image.node? entry with
    | .dir _ => some (fs.makeDirs (.ofString path))
    | node => some (fs.addEntry (.ofString path) node)
  | _ => none

/-- The described surroundings of a process with the given variables. -/
def ofImage? (vars : List (String × String)) (image : Json) : Option Environment := do
  let fields ← image.fields? ["working_directory", "executable", "time", "files"]
  let working : String ← fields.optional "working_directory" "/"
  let executable : Option String ← fields.optional "executable" none
  let seconds : Nat ← fields.optional "time" 0
  let entries := match fields.lookup "files" with
    | some (some (.array entries)) => entries
    | _ => []
  let files ← entries.foldlM Image.addEntry (.new (.ofPath (.ofString working)))
  return {
    vars
    accountHome := none
    executable := match executable with
      | some path => .ok (.ofPath (.ofString path))
      | none => .error .notFound
    files
    now := ⟨seconds, 0⟩ }

end Environment

end TrafficAnalyzers
