import TrafficAnalyzers.Text.Fields
import TrafficAnalyzers.Text.Utf8
/-!
Paths as they are written, any bytes between slashes, and locations: where a file really is, as the
names of the directories from the root down to it.
-/
namespace TrafficAnalyzers

/-- A file name; it has no slash and is neither empty nor made of one or two dots. -/
abbrev Name := List UInt8

def slash : UInt8 := 0x2F

def dot : UInt8 := 0x2E

structure Path where
  bytes : List UInt8
  deriving DecidableEq, Repr

namespace Path

def ofString (s : String) : Path := ⟨Text.Utf8.encode s.toList⟩

/-- The path as text, with U+FFFD for what is not UTF-8. -/
def text (p : Path) : String := String.ofList (Text.Utf8.lossy p.bytes)

/-- The path as text, if it is UTF-8. -/
def text? (p : Path) : Option String := (Text.Utf8.decode? p.bytes).map String.ofList

def isAbsolute (p : Path) : Bool := p.bytes.head? == some slash

def endsInSlash (p : Path) : Bool := p.bytes.getLast? == some slash

/-- `q` read from the directory `p`; one slash is put between them unless `p` ends in one. -/
def join (p q : Path) : Path :=
  if q.isAbsolute || p.bytes.isEmpty then q
  else if p.endsInSlash then ⟨p.bytes ++ q.bytes⟩
  else ⟨p.bytes ++ slash :: q.bytes⟩

def child (p : Path) (name : Name) : Path := p.join ⟨name⟩

/-- The pieces between slashes, without empty ones and single dots. -/
def parts (p : Path) : List Name :=
  (Text.fields slash p.bytes).filter fun piece => !piece.isEmpty && piece != [dot]

/-- The last part, unless it is the parent sign `..`. -/
def fileName? (p : Path) : Option Name := p.parts.getLast?.filter (· != [dot, dot])

/-- What follows the last dot of a name, if something stands before that dot. -/
def nameExtension? (name : Name) : Option Name :=
  let after := name.reverse.takeWhile (· != dot)
  if after.length + 1 < name.length then some after.reverse else none

def extension? (p : Path) : Option Name := p.fileName?.bind nameExtension?

example : (ofString "/a/foo.hlto").extension? = some (Text.Utf8.encode ['h', 'l', 't', 'o']) := by
  decide +kernel

example : (ofString ".hlto").extension? = none := by decide +kernel

example : (ofString "foo.").extension? = some [] := by decide +kernel

end Path

/-- The names from the root down to a file or directory. -/
structure Location where
  names : List Name
  deriving DecidableEq, Repr

namespace Location

def path (l : Location) : Path :=
  if l.names.isEmpty then ⟨[slash]⟩ else ⟨l.names.flatMap (slash :: ·)⟩

/-- Locations are ordered name by name, and names byte by byte. -/
instance : LT Location := ⟨fun a b => a.names < b.names⟩

instance : DecidableLT Location := fun a b => inferInstanceAs (Decidable (a.names < b.names))

def parent? (l : Location) : Option Location :=
  if l.names.isEmpty then none else some ⟨l.names.dropLast⟩

end Location

end TrafficAnalyzers
