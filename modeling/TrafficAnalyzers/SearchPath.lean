import TrafficAnalyzers.Text.Blank
import TrafficAnalyzers.Text.Fields
/-! Lists of directories written with colons between them. -/
namespace TrafficAnalyzers.SearchPath

/-- The entries of a list, trimmed, without those that are empty then. -/
def entriesOf (paths : List Char) : List (List Char) :=
  ((Text.fields ':' paths).map Text.trim).filter (!·.isEmpty)

def entries (paths : String) : List String := (entriesOf paths.toList).map String.ofList

example : entries " /a : :/b/c::  " = ["/a", "/b/c"] := by decide +kernel

end TrafficAnalyzers.SearchPath
