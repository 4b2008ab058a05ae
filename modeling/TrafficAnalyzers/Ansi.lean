/-! Terminal text in 24-bit colours, by ANSI escape sequences. -/
namespace TrafficAnalyzers.Ansi

structure Style where
  red : Nat
  green : Nat
  blue : Nat
  bold : Bool
  deriving DecidableEq, Repr

def reset : List Char := ['\x1b', '[', '0', 'm']

def Style.opening (s : Style) : List Char :=
  let weight := if s.bold then "1;" else ""
  s!"\x1b[{weight}38;2;{s.red};{s.green};{s.blue}m".toList

/-- Opens the style again after every reset inside a text. -/
def reopened (opening : List Char) : List Char → List Char
  | '\x1b' :: '[' :: '0' :: 'm' :: rest => reset ++ opening ++ reopened opening rest
  | c :: rest => c :: reopened opening rest
  | [] => []

/-- The text in a style, or as it is when colours are off. -/
def paint (color : Bool) (style : Style) (text : String) : String :=
  if color then String.ofList (style.opening ++ reopened style.opening text.toList ++ reset)
  else text

example : paint true ⟨0, 255, 65, true⟩ "x" = "\x1b[1;38;2;0;255;65mx\x1b[0m" := by decide +kernel

end TrafficAnalyzers.Ansi
