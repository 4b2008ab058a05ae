/-! White space by the Unicode property `White_Space`, and trimming by it. -/
namespace TrafficAnalyzers.Text

/-- The code points with the property `White_Space`, as closed ranges. -/
def blankRanges : List (Nat × Nat) :=
  [(0x09, 0x0D), (0x20, 0x20), (0x85, 0x85), (0xA0, 0xA0), (0x1680, 0x1680), (0x2000, 0x200A),
   (0x2028, 0x2029), (0x202F, 0x202F), (0x205F, 0x205F), (0x3000, 0x3000)]

def isBlank (c : Char) : Bool :=
  blankRanges.any fun r => r.1 ≤ c.toNat && c.toNat ≤ r.2

/-- Removes white space at the end. -/
def trimEnd (cs : List Char) : List Char := (cs.reverse.dropWhile isBlank).reverse

/-- Removes white space at both ends. -/
def trim (cs : List Char) : List Char := trimEnd (cs.dropWhile isBlank)

example : (blankRanges.map fun r => r.2 - r.1 + 1).sum = 25 := by decide

example : ['\u00a0', '\u2003', '\u0085', '\u3000'].all isBlank = true := by decide

example : ['\u200b', '\ufeff', '\u180e', '\u001c'].any isBlank = false := by decide

end TrafficAnalyzers.Text
