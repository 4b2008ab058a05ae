/-!
UTF-8 read byte by byte. Each ill-formed piece, as long as it can still begin a character, counts
once: `lossy` shows it as U+FFFD and `decode?` refuses it.
-/
namespace TrafficAnalyzers.Text.Utf8

def encode (cs : List Char) : List UInt8 := cs.flatMap String.utf8EncodeChar

/-- Between bytes: at the start of a character, or with `owed` more bytes due, the next of them
between `low` and `high`. -/
inductive State where
  | start
  | inside (value : Nat) (low high : UInt8) (owed : Nat)
  deriving DecidableEq, Repr

/-- The first byte of a character; `none` in the output marks an ill-formed piece. -/
def first (b : UInt8) : List (Option Char) × State :=
  let v := b.toNat
  if v < 0x80 then ([some (Char.ofNat v)], .start)
  else if v < 0xC2 then ([none], .start)
  else if v < 0xE0 then ([], .inside (v - 0xC0) 0x80 0xBF 1)
  else if v = 0xE0 then ([], .inside 0 0xA0 0xBF 2)
  else if v = 0xED then ([], .inside 0xD 0x80 0x9F 2)
  else if v < 0xF0 then ([], .inside (v - 0xE0) 0x80 0xBF 2)
  else if v = 0xF0 then ([], .inside 0 0x90 0xBF 3)
  else if v < 0xF4 then ([], .inside (v - 0xF0) 0x80 0xBF 3)
  else if v = 0xF4 then ([], .inside 4 0x80 0x8F 3)
  else ([none], .start)

/-- One byte; a byte that cannot continue a character ends an ill-formed piece and starts anew. -/
def step : State → UInt8 → List (Option Char) × State
  | .start, b => first b
  | .inside value low high owed, b =>
    if low ≤ b ∧ b ≤ high then
      let value := value * 64 + b.toNat % 64
      if owed ≤ 1 then ([some (Char.ofNat value)], .start)
      else ([], .inside value 0x80 0xBF (owed - 1))
    else ((first b).1.cons none, (first b).2)

def piecesFrom : State → List UInt8 → List (Option Char)
  | .start, [] => []
  | .inside .., [] => [none]
  | s, b :: bs => (step s b).1 ++ piecesFrom (step s b).2 bs

/-- The characters, with `none` for each ill-formed piece. -/
def pieces (bytes : List UInt8) : List (Option Char) := piecesFrom .start bytes

/-- The text with U+FFFD for each ill-formed piece. -/
def lossy (bytes : List UInt8) : List Char := (pieces bytes).map (·.getD '\uFFFD')

/-- The text, if all of it is well-formed. -/
def decode? (bytes : List UInt8) : Option (List Char) := (pieces bytes).mapM id

example : lossy [0x61, 0xFF, 0x62] = ['a', '\uFFFD', 'b'] := by decide

example : lossy [0xE6, 0x97, 0x61] = ['\uFFFD', 'a'] := by decide

example : decode? [0xE6, 0x97, 0xA5] = some ['日'] := by decide

end TrafficAnalyzers.Text.Utf8
