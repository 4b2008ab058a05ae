import TrafficAnalyzers.Json
/-!
Values written as JSON. A structure is read from an object, whose unknown members are skipped and
whose known members must not repeat, or from an array of its fields in order. An alternative
without content is written as its name.
-/
namespace TrafficAnalyzers

/-- A type with a JSON form. -/
class Coded (α : Type) where
  decode : Json → Option α
  encode : α → Json

namespace Json

/-- An integer's token has digits and a sign only, and zero has no sign. -/
def int? : Json → Option Int
  | number token => if token == "-0" then none else token.toInt?
  | _ => none

/-- An integer of the closed range. -/
def intIn? (low high : Int) (json : Json) : Option Int :=
  json.int?.filter fun n => low ≤ n && n ≤ high

def natBelow? (bound : Nat) (json : Json) : Option Nat :=
  (json.intIn? 0 (bound - 1)).map Int.toNat

/-- The fields of a structure as they were given; a field that is not given is `none`. -/
abbrev Fields := List (String × Option Json)

/-- Puts a member into its field, once. -/
def Fields.put (key : String) (json : Json) : Fields → Option Fields
  | [] => some []
  | (name, given) :: fields =>
    if name = key then
      match given with
      | none => some ((name, some json) :: fields)
      | some _ => none
    else (Fields.put key json fields).map ((name, given) :: ·)

def Fields.ofMembers (fields : Fields) : List (Option String × Json) → Option Fields
  | [] => some fields
  | (none, _) :: _ => none
  | (some key, json) :: members => (fields.put key json).bind (Fields.ofMembers · members)

def Fields.ofItems : Fields → List Json → Option Fields
  | fields, [] => some fields
  | [], _ :: _ => none
  | (name, _) :: fields, json :: items => (Fields.ofItems fields items).map ((name, some json) :: ·)

/-- The fields `names` of a structure. -/
def fields? (names : List String) (json : Json) : Option Fields :=
  let fields : Fields := names.map (·, none)
  match json with
  | object members => fields.ofMembers members
  | array items => fields.ofItems items
  | _ => none

/-- A field that must be given. -/
def Fields.required {α : Type} [Coded α] (fields : Fields) (name : String) : Option α :=
  ((fields.lookup name).bind id).bind Coded.decode

/-- A field that stands for `default` if it is not given. -/
def Fields.optional {α : Type} [Coded α] (fields : Fields) (name : String) (default : α) : Option α :=
  match (fields.lookup name).bind id with
  | none => some default
  | some json => Coded.decode json

/-- The alternative's name and its content; a bare name has no content. -/
def variant? : Json → Option (String × Option Json)
  | string name => some (name, none)
  | object [(some name, json)] => some (name, some json)
  | _ => none

/-- An alternative without content, written as its name or with null as content. -/
def unitVariant? {α : Type} (names : List (String × α)) (json : Json) : Option α :=
  match json.variant? with
  | some (name, none) | some (name, some null) => names.lookup name
  | _ => none

/-- An alternative with content, as an object with one member. -/
def tagged (name : String) (content : Json) : Json := record [(name, content)]

end Json

instance : Coded String where
  decode
    | .string s => some s
    | _ => none
  encode := .string

instance : Coded Bool where
  decode
    | .bool b => some b
    | _ => none
  encode := .bool

instance : Coded UInt16 where
  decode json := (json.natBelow? UInt16.size).map UInt16.ofNat
  encode n := .ofNat n.toNat

instance : Coded UInt32 where
  decode json := (json.natBelow? UInt32.size).map UInt32.ofNat
  encode n := .ofNat n.toNat

/-- Counts and handles are below 2^64. -/
instance : Coded Nat where
  decode json := json.natBelow? UInt64.size
  encode := .ofNat

instance : Coded Int64 where
  decode json := (json.intIn? Int64.minValue.toInt Int64.maxValue.toInt).map Int64.ofInt
  encode n := .ofInt n.toInt

instance {α : Type} [Coded α] : Coded (Option α) where
  decode
    | .null => some none
    | json => (Coded.decode json).map some
  encode := .ofOption Coded.encode

instance {α : Type} [Coded α] : Coded (List α) where
  decode
    | .array items => items.mapM Coded.decode
    | _ => none
  encode := .ofList Coded.encode

instance {α β : Type} [Coded α] [Coded β] : Coded (α × β) where
  decode
    | .array [a, b] => do return (← Coded.decode a, ← Coded.decode b)
    | _ => none
  encode p := .array [Coded.encode p.1, Coded.encode p.2]

end TrafficAnalyzers
