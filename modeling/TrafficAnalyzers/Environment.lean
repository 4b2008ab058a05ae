import TrafficAnalyzers.FileSystem
import TrafficAnalyzers.Timestamp
/-! What surrounds a running process: its variables, the file system, its own place and the time. -/
namespace TrafficAnalyzers

structure Environment where
  /-- The environment variables with their values. -/
  vars : List (String × String)
  /-- The home directory of the user's account. -/
  accountHome : Option Path
  executable : Except IoError Location
  files : FileSystem
  now : Timestamp

namespace Environment

def get? (env : Environment) (name : String) : Option String := env.vars.lookup name

/-- The variable `HOME` unless it is empty, else the account's home directory. -/
def home? (env : Environment) : Option Path :=
  match env.get? "HOME" with
  | some home => if home.isEmpty then env.accountHome else some (.ofString home)
  | none => env.accountHome

/-- Where programs keep data of a user; a relative setting does not count. -/
def dataDirectory? (env : Environment) : Option Path :=
  match (env.get? "XDG_DATA_HOME").map Path.ofString with
  | some dir =>
    if dir.isAbsolute then some dir else env.home?.map (·.join (.ofString ".local/share"))
  | none => env.home?.map (·.join (.ofString ".local/share"))

end Environment

end TrafficAnalyzers
