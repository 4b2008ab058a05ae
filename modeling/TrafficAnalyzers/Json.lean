/-! JSON documents. Members keep their order and repetitions, numbers keep their digits. -/
namespace TrafficAnalyzers

inductive Json where
  | null
  | bool (value : Bool)
  | number (token : String)
  | string (value : String)
  /-- A string with an unpaired surrogate escape, which no text can hold. -/
  | unpaired
  | array (items : List Json)
  /-- A member's key is `none` if it holds an unpaired surrogate escape. -/
  | object (members : List (Option String × Json))
  deriving Inhabited

namespace Json

def ofNat (n : Nat) : Json := number (toString n)

def ofInt (n : Int) : Json := number (toString n)

def ofOption {α : Type} (f : α → Json) : Option α → Json
  | none => null
  | some a => f a

def ofList {α : Type} (f : α → Json) (as : List α) : Json := array (as.map f)

/-- An object with the given members, in order. -/
def record (members : List (String × Json)) : Json :=
  object (members.map fun m => (some m.1, m.2))

end Json

end TrafficAnalyzers
