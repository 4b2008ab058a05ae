import TrafficAnalyzers.Json
/-! Writing JSON text, on one line or indented by two spaces a level. -/
namespace TrafficAnalyzers.Json

def hexLower (n : Nat) : Char := (Nat.toDigits 16 (n % 16)).headD '0'

/-- Only the quote, the backslash and the control characters below the space are escaped. -/
def escapeChar (c : Char) : List Char :=
  if c = '"' then ['\\', '"']
  else if c = '\\' then ['\\', '\\']
  else if c = '\x08' then ['\\', 'b']
  else if c = '\x0c' then ['\\', 'f']
  else if c = '\n' then ['\\', 'n']
  else if c = '\r' then ['\\', 'r']
  else if c = '\t' then ['\\', 't']
  else if c.toNat < 0x20 then ['\\', 'u', '0', '0', hexLower (c.toNat / 16), hexLower c.toNat]
  else [c]

def quoted (s : String) : String :=
  "\"" ++ String.ofList (s.toList.flatMap escapeChar) ++ "\""

def separated (separator : String) (parts : List String) : String := separator.intercalate parts

def indent (level : Nat) : String := String.ofList (List.replicate (2 * level) ' ')

/-- Items on lines of their own between brackets, which close at once if there are none. -/
def block (opening closing : String) (level : Nat) (lines : List String) : String :=
  if lines.isEmpty then opening ++ closing
  else
    let line := "\n" ++ indent (level + 1)
    opening ++ line ++ separated ("," ++ line) lines ++ "\n" ++ indent level ++ closing

mutual

/-- The document on one line, without blanks. -/
def compact : Json → String
  | null => "null"
  | bool value => toString value
  | number token => token
  | string value => quoted value
  | unpaired => quoted "\uFFFD"
  | array items => "[" ++ separated "," (compactItems items) ++ "]"
  | object members => "\x7b" ++ separated "," (compactMembers members) ++ "\x7d"

def compactItems : List Json → List String
  | [] => []
  | item :: items => compact item :: compactItems items

def compactMembers : List (Option String × Json) → List String
  | [] => []
  | (key, item) :: members => (quoted (key.getD "\uFFFD") ++ ":" ++ compact item) :: compactMembers members

end

mutual

/-- The document with every item and member on a line of its own. -/
def pretty (level : Nat) : Json → String
  | null => "null"
  | bool value => toString value
  | number token => token
  | string value => quoted value
  | unpaired => quoted "\uFFFD"
  | array items => block "[" "]" level (prettyItems (level + 1) items)
  | object members => block "\x7b" "\x7d" level (prettyMembers (level + 1) members)

def prettyItems (level : Nat) : List Json → List String
  | [] => []
  | item :: items => pretty level item :: prettyItems level items

def prettyMembers (level : Nat) : List (Option String × Json) → List String
  | [] => []
  | (key, item) :: members =>
    (quoted (key.getD "\uFFFD") ++ ": " ++ pretty level item) :: prettyMembers level members

end

end TrafficAnalyzers.Json
