import TrafficAnalyzers.Analyzer
import TrafficAnalyzers.Host
import TrafficAnalyzers.Op
import TrafficAnalyzers.ParserRuntime
import TrafficAnalyzers.SortedMap
/-!
Everything that registration writes to: the host, the analyzer tables, the events and the parser
runtime.
-/
namespace TrafficAnalyzers

structure Registry (H : Type) where
  host : H
  analyzers : Analyzers
  /-- The identifiers of registered events, by qualified name. -/
  events : SortedMap String Nat
  runtime : ParserRuntime
  deriving DecidableEq, Repr

namespace Registry

variable {H α : Type}

def new (host : H) (failures : List RuntimeFailure) : Registry H :=
  ⟨host, .empty, .empty, .new failures⟩

/-- Asks the host without changing it. -/
def query (f : H → α) : Op (Registry H) α := .read fun r => f r.host

def changeHost (f : H → H) : Op (Registry H) Unit := .update fun r => { r with host := f r.host }

/-- Makes a request that the host answers. -/
def askHost (f : H → α × H) : Op (Registry H) α :=
  .answer fun r =>
    let given := f r.host
    (given.1, { r with host := given.2 })

def changeAnalyzers (f : Analyzers → Analyzers) : Op (Registry H) Unit :=
  .update fun r => { r with analyzers := f r.analyzers }

def storeProtocol (p : ProtocolAnalyzer) : Op (Registry H) Unit :=
  changeAnalyzers fun a => { a with protocol := a.protocol.insert p }

def storeFile (p : FileAnalyzer) : Op (Registry H) Unit :=
  changeAnalyzers fun a => { a with file := a.file.insert p }

def storePacket (p : PacketAnalyzer) : Op (Registry H) Unit :=
  changeAnalyzers fun a => { a with packet := a.packet.insert p }

@[simp] theorem query_apply (f : H → α) (r : Registry H) : query f r = ⟨.ok (f r.host), r, []⟩ := rfl

@[simp] theorem changeHost_apply (f : H → H) (r : Registry H) :
    changeHost f r = ⟨.ok (), { r with host := f r.host }, []⟩ := rfl

@[simp] theorem askHost_apply (f : H → α × H) (r : Registry H) :
    askHost f r = ⟨.ok (f r.host).1, { r with host := (f r.host).2 }, []⟩ := rfl

@[simp] theorem changeAnalyzers_apply (f : Analyzers → Analyzers) (r : Registry H) :
    changeAnalyzers f r = ⟨.ok (), { r with analyzers := f r.analyzers }, []⟩ := rfl

end Registry

end TrafficAnalyzers
