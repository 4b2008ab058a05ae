import TrafficAnalyzers.Json
/-!
Reading JSON text, strictly: four blank characters, no leading zeros, no raw control characters, and
nothing after the document.
-/
namespace TrafficAnalyzers.Json

/-- The blanks between tokens. -/
def isSpace (c : Char) : Bool := c == ' ' || c == '\t' || c == '\n' || c == '\r'

def skipSpace (cs : List Char) : List Char := cs.dropWhile isSpace

def hexDigit? (c : Char) : Option Nat :=
  if '0' ≤ c ∧ c ≤ '9' then some (c.toNat - '0'.toNat)
  else if 'a' ≤ c ∧ c ≤ 'f' then some (c.toNat - 'a'.toNat + 10)
  else if 'A' ≤ c ∧ c ≤ 'F' then some (c.toNat - 'A'.toNat + 10)
  else none

def hex4? (a b c d : Char) : Option Nat := do
  return (((← hexDigit? a) * 16 + (← hexDigit? b)) * 16 + (← hexDigit? c)) * 16 + (← hexDigit? d)

/-- What a one-letter escape stands for. -/
def simpleEscape? : Char → Option Char
  | '"' => some '"'
  | '\\' => some '\\'
  | '/' => some '/'
  | 'b' => some '\x08'
  | 'f' => some '\x0c'
  | 'n' => some '\n'
  | 'r' => some '\r'
  | 't' => some '\t'
  | _ => none

def isLead (u : Nat) : Bool := 0xD800 ≤ u && u < 0xDC00

def isTrail (u : Nat) : Bool := 0xDC00 ≤ u && u < 0xE000

/-- A string's UTF-16 unit or character as it is read. -/
inductive Unit16 where
  | char (c : Char)
  | lead (u : Nat)
  | trail (u : Nat)

/-- The characters and units up to the closing quote, and what follows it. -/
def units : List Char → Option (List Unit16 × List Char)
  | [] => none
  | '"' :: rest => some ([], rest)
  | '\\' :: 'u' :: a :: b :: c :: d :: rest => do
    let u ← hex4? a b c d
    let (us, rest) ← units rest
    let unit := if isLead u then .lead u else if isTrail u then .trail u else .char (Char.ofNat u)
    return (unit :: us, rest)
  | '\\' :: e :: rest => do
    let c ← simpleEscape? e
    let (us, rest) ← units rest
    return (.char c :: us, rest)
  | c :: rest =>
    if c.toNat < 0x20 || c == '\\' then none
    else (units rest).map fun r => (.char c :: r.1, r.2)

/-- Joins surrogate pairs; `none` if a surrogate has no partner. -/
def joinUnits : List Unit16 → Option (List Char)
  | [] => some []
  | .char c :: us => (joinUnits us).map (c :: ·)
  | .lead u :: .trail v :: us =>
    (joinUnits us).map (Char.ofNat (0x10000 + (u - 0xD800) * 0x400 + (v - 0xDC00)) :: ·)
  | .lead _ :: _ => none
  | .trail _ :: _ => none

/-- A string after its opening quote; the text is `none` if a surrogate has no partner. -/
def stringBody (cs : List Char) : Option (Option String × List Char) :=
  (units cs).map fun r => ((joinUnits r.1).map String.ofList, r.2)

def digits (cs : List Char) : List Char × List Char := cs.span Char.isDigit

/-- The digits before the point: a single zero, or digits that do not start with one. -/
def wholePart (cs : List Char) : Option (List Char × List Char) :=
  match cs with
  | '0' :: rest => if (rest.head?.map Char.isDigit).getD false then none else some (['0'], rest)
  | _ => match digits cs with
    | ([], _) => none
    | r => some r

def fractionPart (cs : List Char) : Option (List Char × List Char) :=
  match cs with
  | '.' :: rest => match digits rest with
    | ([], _) => none
    | (ds, rest) => some ('.' :: ds, rest)
  | _ => some ([], cs)

def exponentDigits (lead : List Char) (cs : List Char) : Option (List Char × List Char) :=
  match digits cs with
  | ([], _) => none
  | (ds, rest) => some (lead ++ ds, rest)

def exponentPart (cs : List Char) : Option (List Char × List Char) :=
  match cs with
  | 'e' :: '+' :: rest | 'E' :: '+' :: rest => exponentDigits ['e', '+'] rest
  | 'e' :: '-' :: rest | 'E' :: '-' :: rest => exponentDigits ['e', '-'] rest
  | 'e' :: rest | 'E' :: rest => exponentDigits ['e'] rest
  | _ => some ([], cs)

/-- A number with its sign, digits, fraction and exponent. -/
def numberToken (cs : List Char) : Option (String × List Char) := do
  let (sign, cs) := match cs with
    | '-' :: rest => (['-'], rest)
    | _ => ([], cs)
  let (whole, cs) ← wholePart cs
  let (fraction, cs) ← fractionPart cs
  let (exponent, cs) ← exponentPart cs
  return (String.ofList (sign ++ whole ++ fraction ++ exponent), cs)

mutual

/-- The document at the front of a text, within a nesting of `fuel`. -/
def value (fuel : Nat) (cs : List Char) : Option (Json × List Char) :=
  match fuel with
  | 0 => none
  | fuel + 1 =>
    match skipSpace cs with
    | 'n' :: 'u' :: 'l' :: 'l' :: rest => some (null, rest)
    | 't' :: 'r' :: 'u' :: 'e' :: rest => some (bool true, rest)
    | 'f' :: 'a' :: 'l' :: 's' :: 'e' :: rest => some (bool false, rest)
    | '"' :: rest => (stringBody rest).map fun r => (r.1.elim unpaired string, r.2)
    | '[' :: rest =>
      match skipSpace rest with
      | ']' :: rest => some (array [], rest)
      | _ => (elements fuel rest).map fun r => (array r.1, r.2)
    | '\x7b' :: rest =>
      match skipSpace rest with
      | '\x7d' :: rest => some (object [], rest)
      | _ => (members fuel rest).map fun r => (object r.1, r.2)
    | cs => (numberToken cs).map fun r => (number r.1, r.2)

/-- One or more documents between commas, up to a closing bracket. -/
def elements (fuel : Nat) (cs : List Char) : Option (List Json × List Char) :=
  match fuel with
  | 0 => none
  | fuel + 1 => do
    let (item, rest) ← value fuel cs
    match skipSpace rest with
    | ',' :: rest => (elements fuel rest).map fun r => (item :: r.1, r.2)
    | ']' :: rest => some ([item], rest)
    | _ => none

/-- One or more members between commas, up to a closing brace. -/
def members (fuel : Nat) (cs : List Char) : Option (List (Option String × Json) × List Char) :=
  match fuel with
  | 0 => none
  | fuel + 1 =>
    match skipSpace cs with
    | '"' :: rest => do
      let (key, rest) ← stringBody rest
      match skipSpace rest with
      | ':' :: rest =>
        let (item, rest) ← value fuel rest
        match skipSpace rest with
        | ',' :: rest => (members fuel rest).map fun r => ((key, item) :: r.1, r.2)
        | '\x7d' :: rest => some ([(key, item)], rest)
        | _ => none
      | _ => none
    | _ => none

end

/-- The document a text holds. Every nested document and every further item takes a character, so
the length bounds the recursion. -/
def parse? (text : String) : Option Json :=
  let cs := text.toList
  match value (2 * cs.length + 2) cs with
  | some (json, rest) => if (skipSpace rest).isEmpty then some json else none
  | none => none

end TrafficAnalyzers.Json
