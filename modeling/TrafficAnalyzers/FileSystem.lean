import TrafficAnalyzers.IoError
import TrafficAnalyzers.Path
import TrafficAnalyzers.Script
/-!
A file system: directories, files and symbolic links under a root, and what paths denote in it.
Reading a path follows links, up to a limit.
-/
namespace TrafficAnalyzers

/-- What a file holds. -/
inductive Content where
  | data (bytes : List UInt8)
  /-- A module, by what it does when it registers itself. -/
  | module (script : Script)
  /-- A loadable library that is no module. -/
  | library

/-- The entries of a directory in the order in which it lists them. -/
inductive Dir where
  | empty
  | file (name : Name) (content : Content) (rest : Dir)
  | link (name : Name) (target : Path) (rest : Dir)
  | dir (name : Name) (entries : Dir) (rest : Dir)

/-- What a name in a directory stands for. -/
inductive Node where
  | file (content : Content)
  | link (target : Path)
  | dir (entries : Dir)

namespace Dir

def get? (name : Name) : Dir → Option Node
  | empty => none
  | file n content rest => if n = name then some (.file content) else get? name rest
  | link n target rest => if n = name then some (.link target) else get? name rest
  | dir n entries rest => if n = name then some (.dir entries) else get? name rest

def consNode (name : Name) (node : Node) (rest : Dir) : Dir :=
  match node with
  | .file content => .file name content rest
  | .link target => .link name target rest
  | .dir entries => .dir name entries rest

/-- Puts an entry in the place of the one of that name, or else at the end. -/
def put (name : Name) (node : Node) : Dir → Dir
  | empty => consNode name node empty
  | file n content rest =>
    if n = name then consNode name node rest else .file n content (put name node rest)
  | link n target rest =>
    if n = name then consNode name node rest else .link n target (put name node rest)
  | dir n entries rest =>
    if n = name then consNode name node rest else .dir n entries (put name node rest)

/-- What is found by going down through directories, not through links. -/
def descend (d : Dir) : List Name → Option Node
  | [] => some (.dir d)
  | name :: names =>
    match d.get? name with
    | some (.dir entries) => entries.descend names
    | some node => if names.isEmpty then some node else none
    | none => none

/-- Puts an entry at a place whose parent is a directory; without one nothing changes. -/
def putAt (node : Node) (d : Dir) : List Name → Dir
  | [] => d
  | [name] => d.put name node
  | name :: names =>
    match d.get? name with
    | some (.dir entries) => d.put name (.dir (entries.putAt node names))
    | _ => d

end Dir

/-- A step along a path. -/
inductive Stride where
  /-- Stay, at what has to be a directory: nothing between two slashes. -/
  | gap
  /-- The same, by a single dot. -/
  | here
  | up
  | down (name : Name)
  deriving DecidableEq, Repr

namespace Stride

def ofPiece (piece : Name) : Stride :=
  if piece = [] then .gap
  else if piece = [dot] then .here
  else if piece = [dot, dot] then .up
  else .down piece

/-- Whether a path goes on with slashes and nothing else. -/
def onlySlashes (strides : List Stride) : Bool := !strides.isEmpty && strides.all (· = .gap)

/-- What comes after staying where one is. -/
def afterStay (strides : List Stride) : List Stride :=
  strides.dropWhile fun stride => stride = .gap || stride = .here

/-- Whether a path ends in slashes or dots here, or goes up before it goes further down. -/
def needsDirectory (strides : List Stride) : Bool :=
  match afterStay strides with
  | [] => !strides.isEmpty
  | .up :: _ => true
  | _ => false

end Stride

def Path.strides (p : Path) : List Stride := (Text.fields slash p.bytes).map Stride.ofPiece

structure FileSystem where
  root : Dir
  workingDirectory : Location

namespace FileSystem

/-- The longest file name. -/
def nameLimit : Nat := 255

/-- The length from which on a path is too long for one request. -/
def pathLimit : Nat := 4096

/-- How many links one path may lead through. -/
def linkLimit : Nat := 40

/-- Where a path leads: to what is there, or to a free place in a directory. -/
inductive Target where
  | found (place : List Name) (node : Node)
  | free (place : List Name)

/-- What a path is followed for. -/
inductive Purpose where
  | reading
  /-- A file is not written under a name with a slash after it, whatever there is, and whether the
  path or a link at its end spells the name so. -/
  | writing
  /-- Every place on the way is asked for by its whole path from the root. -/
  | locating
  deriving DecidableEq, Repr

namespace Purpose

/-- Why one does not go down to `place`, whatever is there, if that depends on the purpose. A place
that is no link is asked for with a slash after it if it has to be a directory. -/
def refusal? (purpose : Purpose) (place : List Name) (isLink : Bool) (strides : List Stride) :
    Option IoError :=
  match purpose with
  | .reading => none
  | .writing => if Stride.onlySlashes strides then some .isDirectory else none
  | .locating =>
    let added := if !isLink && Stride.needsDirectory strides then 1 else 0
    if pathLimit ≤ (Location.mk place).path.bytes.length + added then some .nameTooLong else none

/-- Why one does not go on from `place`, which is no directory. -/
def deadEnd (purpose : Purpose) (place : List Name) (strides : List Stride) : IoError :=
  match purpose, Stride.afterStay strides with
  | .locating, .down name :: rest =>
    (refusal? .locating (place ++ [name]) false rest).getD .notDirectory
  | _, _ => .notDirectory

end Purpose

/-- Goes along the strides from `node` at `place`, leaving links to `follow`. -/
def advance (root : Dir) (purpose : Purpose)
    (follow : List Name → List Stride → Except IoError Target) :
    List Name → Node → List Stride → Except IoError Target
  | place, node, [] => .ok (.found place node)
  | place, .dir entries, stride :: strides =>
    match stride with
    | .gap => advance root purpose follow place (.dir entries) strides
    | .here => advance root purpose follow place (.dir entries) strides
    | .up =>
      match root.descend place.dropLast with
      | some node => advance root purpose follow place.dropLast node strides
      | none => .error .notFound
    | .down name =>
      let there := entries.get? name
      let isLink := match there with
        | some (.link _) => true
        | _ => false
      match purpose.refusal? (place ++ [name]) isLink strides with
      | some e => .error e
      | none =>
        if nameLimit < name.length then .error .nameTooLong
        else match there with
          | none => if strides.isEmpty then .ok (.free (place ++ [name])) else .error .notFound
          | some (.link target) =>
            follow (if target.isAbsolute then [] else place) (target.strides ++ strides)
          | some node => advance root purpose follow (place ++ [name]) node strides
  | place, _, stride :: strides => .error (purpose.deadEnd place (stride :: strides))

/-- Goes along the strides from a directory, through at most `links` links. -/
def walk (root : Dir) (purpose : Purpose) :
    (links : Nat) → List Name → List Stride → Except IoError Target
  | 0, place, strides => start (fun _ _ => .error .tooManyLinks) place strides
  | links + 1, place, strides => start (walk root purpose links) place strides
where
  start (follow : List Name → List Stride → Except IoError Target) (place : List Name)
      (strides : List Stride) : Except IoError Target :=
    match root.descend place with
    | some node => advance root purpose follow place node strides
    | none => .error .notFound

/-- Where a path leads, read from the working directory if it is relative. -/
def target (fs : FileSystem) (purpose : Purpose) (p : Path) : Except IoError Target :=
  let place := if p.isAbsolute then [] else fs.workingDirectory.names
  if p.bytes.contains 0 then .error .nulInPath
  else if p.bytes.isEmpty then .error .notFound
  else walk fs.root purpose linkLimit place p.strides

/-- What is at the end of a path. -/
def resolve (fs : FileSystem) (purpose : Purpose) (p : Path) : Except IoError (Location × Node) :=
  match fs.target purpose p with
  | .ok (.found place node) => .ok (⟨place⟩, node)
  | .ok (.free _) => .error .notFound
  | .error e => .error e

/-- The one location of what a path denotes, however the path is spelled. The path itself may be of
any length, but not the locations on the way. -/
def canonicalize (fs : FileSystem) (p : Path) : Except IoError Location :=
  (fs.resolve .locating p).map (·.1)

/-- What a path denotes, for use. -/
def access (fs : FileSystem) (p : Path) : Except IoError Node :=
  if p.bytes.contains 0 then .error .nulInPath
  else if pathLimit ≤ p.bytes.length then .error .nameTooLong
  else (fs.resolve .reading p).map (·.2)

/-- The directory that a path denotes. -/
def dir? (fs : FileSystem) (p : Path) : Option Dir :=
  match fs.access p with
  | .ok (.dir entries) => some entries
  | _ => none

def isFile (fs : FileSystem) (p : Path) : Bool :=
  match fs.access p with
  | .ok (.file _) => true
  | _ => false

/-- The text of a file; a library is no text. -/
def readText (fs : FileSystem) (p : Path) : Except IoError String :=
  match fs.access p with
  | .ok (.file (.data bytes)) =>
    match Text.Utf8.decode? bytes with
    | some cs => .ok (String.ofList cs)
    | none => .error .notUtf8
  | .ok (.file _) => .error .notUtf8
  | .ok (.dir _) => .error .isDirectory
  | .ok (.link _) => .error .notFound
  | .error e => .error e

/-- The place of a file to be written, which need not exist yet. -/
def writePlace (fs : FileSystem) (p : Path) : Except IoError (List Name) :=
  if p.bytes.contains 0 then .error .nulInPath
  else if pathLimit ≤ p.bytes.length then .error .nameTooLong
  else
    match fs.target .writing p with
    | .ok (.found place (.file _)) => .ok place
    | .ok (.found _ _) => .error .isDirectory
    | .ok (.free place) => .ok place
    | .error e => .error e

/-- Writes a text to a file in place of what it held. -/
def writeText (fs : FileSystem) (p : Path) (text : String) : Except IoError FileSystem :=
  (fs.writePlace p).map fun place =>
    { fs with root := fs.root.putAt (.file (.data (Text.Utf8.encode text.toList))) place }

/-- Puts an entry where a path leads, in the place of what is there. -/
def put (fs : FileSystem) (p : Path) (node : Node) : FileSystem :=
  match fs.target .reading p with
  | .ok (.found place _) => { fs with root := fs.root.putAt node place }
  | .ok (.free place) => { fs with root := fs.root.putAt node place }
  | .error _ => fs

/-- Makes a directory where a path leads, unless something is there. -/
def makeDir (fs : FileSystem) (p : Path) : FileSystem :=
  match fs.target .reading p with
  | .ok (.free place) => { fs with root := fs.root.putAt (.dir .empty) place }
  | _ => fs

/-- Makes the directories along a path that are missing. -/
def makeDirs (fs : FileSystem) (p : Path) : FileSystem :=
  let pieces := Text.fields slash p.bytes
  (List.range pieces.length).foldl
    (fun fs i => fs.makeDir ⟨List.intercalate [slash] (pieces.take (i + 1))⟩) fs

/-- An empty file system with a working directory. -/
def new (workingDirectory : Location) : FileSystem :=
  makeDirs ⟨.empty, workingDirectory⟩ workingDirectory.path

end FileSystem

end TrafficAnalyzers
