import TrafficAnalyzers.Ansi
import TrafficAnalyzers.Report
/-! Reports as text for people, and the choice between that and JSON. -/
namespace TrafficAnalyzers

namespace Palette

def heading : Ansi.Style := ⟨0, 255, 65, true⟩

def good : Ansi.Style := ⟨0, 255, 65, false⟩

def faint : Ansi.Style := ⟨128, 128, 128, false⟩

def frame : Ansi.Style := ⟨64, 64, 64, false⟩

def count : Ansi.Style := ⟨191, 64, 191, true⟩

def plain : Ansi.Style := ⟨255, 255, 255, false⟩

def strong : Ansi.Style := ⟨255, 255, 255, true⟩

def warning : Ansi.Style := ⟨255, 140, 0, false⟩

def kind : Ansi.Style := ⟨0, 212, 255, false⟩

end Palette

/-- Blanks after a text up to a width. -/
def padEnd (width : Nat) (text : String) : String :=
  text ++ String.ofList (List.replicate (width - text.length) ' ')

def spaced (parts : List String) : String := " ".intercalate parts

def commaSeparated (parts : List String) : String := ", ".intercalate parts

def ModuleRow.human (color : Bool) (row : ModuleRow) : String :=
  "  " ++ spaced [Ansi.paint color Palette.heading "▶",
    Ansi.paint color Palette.plain row.path.text] ++ "\n"

def stateCell (color : Bool) : Option Bool → String
  | some true => Ansi.paint color Palette.good "enabled"
  | some false => Ansi.paint color Palette.warning "disabled"
  | none => Ansi.paint color Palette.faint "unknown"

def AnalyzerRow.human (color : Bool) (row : AnalyzerRow) : String :=
  "  " ++ spaced [Ansi.paint color Palette.kind (padEnd 8 row.kind.name),
      Ansi.paint color Palette.faint ("#" ++ padEnd 4 (toString row.id)),
      Ansi.paint color Palette.strong row.name, stateCell color row.enabled] ++ "\n"
    ++ "      parsers  " ++ commaSeparated row.parsers ++ "\n"
    ++ (match row.replaces with
      | some name => "      replaces " ++ Ansi.paint color Palette.warning name ++ "\n"
      | none => "")
    ++ (if row.bindings.isEmpty then ""
      else "      bound to " ++ commaSeparated row.bindings ++ "\n")

def RegistryReport.human (color : Bool) (report : RegistryReport) : String :=
  let modules := report.modules.length
  let analyzers := report.analyzers.length
  "\n" ++ spaced [Ansi.paint color Palette.heading "ANALYZER REGISTRY",
      Ansi.paint color Palette.faint ("(" ++ report.phase.name ++ ")")] ++ "\n\n"
    ++ spaced [Ansi.paint color Palette.frame "⟦",
      Ansi.paint color Palette.count s!"{modules} modules", Ansi.paint color Palette.good "•",
      Ansi.paint color Palette.count s!"{analyzers} analyzers",
      Ansi.paint color Palette.frame "⟧"] ++ "\n\n"
    ++ String.join (report.modules.map (ModuleRow.human color))
    ++ (if report.modules.isEmpty then "" else "\n")
    ++ String.join (report.analyzers.map (AnalyzerRow.human color))
    ++ (if report.events.isEmpty then ""
      else "\n" ++ Ansi.paint color Palette.heading "EVENTS" ++ "\n"
        ++ String.join (report.events.map fun event => "  " ++ event ++ "\n"))

def DiscoveryReport.human (color : Bool) (report : DiscoveryReport) : String :=
  String.join (report.searchPaths.map fun paths =>
      spaced [Ansi.paint color Palette.faint "searching", paths] ++ "\n")
    ++ (if report.modules.isEmpty then
      Ansi.paint color Palette.warning "no modules found" ++ "\n" else "")
    ++ String.join (report.modules.map fun path =>
      "  " ++ spaced [Ansi.paint color Palette.good "●",
        Ansi.paint color Palette.plain path.text] ++ "\n")

/-- The text of a report; JSON has none if a path is no text. -/
def RegistryReport.render? (format : Format) (color : Bool) (report : RegistryReport) :
    Option String :=
  match format with
  | .human => some (report.human color)
  | .json => report.toJson?.map fun json => json.pretty 0 ++ "\n"

def DiscoveryReport.render? (format : Format) (color : Bool) (report : DiscoveryReport) :
    Option String :=
  match format with
  | .human => some (report.human color)
  | .json => report.toJson?.map fun json => json.pretty 0 ++ "\n"

end TrafficAnalyzers
