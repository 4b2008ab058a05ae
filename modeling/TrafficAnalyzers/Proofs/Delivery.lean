import TrafficAnalyzers.Proofs.Inspection
import TrafficAnalyzers.Proofs.Paths.Texts
/-!
Reports that are printed or written to a file, in either format. Main statement: a report in JSON is
delivered exactly if it is delivered for people and the names of all files in it are UTF-8; that is
all that keeps the formats apart.
-/
namespace TrafficAnalyzers

open Text.Utf8 (WellFormed)

namespace FileSystem

/-- Prints a text, or writes it to a file; answers what is printed and which files there are then. -/
def deliver (fs : FileSystem) (destination : Option Path) (text? : Option String) :
    Except Failure (String × FileSystem) :=
  match text?, destination with
  | none, _ => .error .notText
  | some text, none => .ok (text, fs)
  | some text, some p => ((fs.writeText p text).mapError .io).map ("", ·)

def Delivers (fs : FileSystem) (destination : Option Path) (text? : Option String) : Prop :=
  ∃ delivered, fs.deliver destination text? = .ok delivered

/-- The destination takes texts. -/
def Accepts (fs : FileSystem) (destination : Option Path) : Prop :=
  ∀ p, destination = some p → ∃ place, fs.writePlace p = .ok place

variable {fs : FileSystem} {destination : Option Path}

/-- Whether a text can be written does not depend on the text. -/
theorem delivers_iff {text? : Option String} :
    fs.Delivers destination text? ↔ text?.isSome = true ∧ fs.Accepts destination := by
  cases text? with
  | none => simp [Delivers, deliver]
  | some text =>
    cases destination with
    | none => simp [Delivers, deliver, Accepts]
    | some p => cases hplace : fs.writePlace p <;>
        simp [Delivers, deliver, Accepts, writeText, hplace, Except.map, Except.mapError]

/-- What some value is rendered to is delivered if the value is there and any other text is. -/
theorem delivers_map_iff {α : Type} {value? : Option α} {render : α → String} {text : String} :
    fs.Delivers destination (value?.map render) ↔
      fs.Delivers destination (some text) ∧ value?.isSome = true := by
  rw [delivers_iff, delivers_iff, Option.isSome_map]
  simp only [Option.isSome_some, true_and]
  exact and_comm

end FileSystem

namespace CommandLine

variable {env : Environment} {settings : Settings} {line : CommandLine}

/-- A command delivers the text of its report, in its format and to its output file. -/
theorem run_of_reports {render? : Format → Bool → Option String}
    (h : line.Reports env settings render?) (terminal : Bool) :
    let color := terminal && !line.noColor
    let trace := (line.report env color settings).2
    line.run env terminal =
      match env.files.deliver line.outputFile (render? line.format color) with
      | .ok (printed, files) => ⟨.ok (), printed, files, trace⟩
      | .error failure => ⟨.error failure, "", env.files, trace⟩ := by
  intro color trace
  have htext : line.report env color settings =
      ((render? line.format color).elim (.error .notText) .ok, trace) := Prod.ext (h.text color) rfl
  rw [run, h.own]
  simp only
  rw [htext]
  cases render? line.format color with
  | none => rfl
  | some text =>
    cases hfile : line.outputFile with
    | none => rfl
    | some p => cases hwrite : env.files.writeText p text <;>
        simp [FileSystem.deliver, hwrite, Except.map, Except.mapError]

end CommandLine

/-- JSON holds the report of a registry if the paths of its modules are texts. -/
theorem RegistryReport.isSome_toJson? (report : RegistryReport) :
    report.toJson?.isSome = true ↔ ∀ row ∈ report.modules, row.path.text?.isSome = true := by
  have hrow (row : ModuleRow) : row.toJson?.isSome = row.path.text?.isSome := by
    cases htext : row.path.text? <;> simp [ModuleRow.toJson?, Path.toJson?, htext]
  have hmodules : report.toJson?.isSome = (report.modules.mapM ModuleRow.toJson?).isSome := by
    cases hrows : report.modules.mapM ModuleRow.toJson? <;> simp [toJson?, hrows]
  rw [hmodules, isSome_mapM]
  simp only [hrow]

theorem DiscoveryReport.isSome_toJson? (report : DiscoveryReport) :
    report.toJson?.isSome = true ↔ ∀ path ∈ report.modules, path.text?.isSome = true := by
  have hpath (path : Path) : path.toJson?.isSome = path.text?.isSome := Option.isSome_map
  have hmodules : report.toJson?.isSome = (report.modules.mapM Path.toJson?).isSome := by
    cases hrows : report.modules.mapM Path.toJson? <;> simp [toJson?, hrows]
  rw [hmodules, isSome_mapM]
  simp only [hpath]

section Formats

variable {fs : FileSystem} {destination : Option Path} {color : Bool}

theorem RegistryReport.delivers_json_iff {report : RegistryReport} :
    fs.Delivers destination (report.render? .json color) ↔
      fs.Delivers destination (report.render? .human color) ∧
        ∀ row ∈ report.modules, row.path.text?.isSome = true := by
  rw [← report.isSome_toJson?]
  exact FileSystem.delivers_map_iff

theorem DiscoveryReport.delivers_json_iff {report : DiscoveryReport} :
    fs.Delivers destination (report.render? .json color) ↔
      fs.Delivers destination (report.render? .human color) ∧
        ∀ path ∈ report.modules, path.text?.isSome = true := by
  rw [← report.isSome_toJson?]
  exact FileSystem.delivers_map_iff

end Formats

/-- Whatever the destination: the report on a plugin is delivered in JSON exactly if it is for people
and the names of all directories and files down to its modules are UTF-8; likewise the report on what
is found, with the names in its paths. -/
theorem json_delivered_iff_names_text (fs : FileSystem) (destination : Option Path) (color : Bool) :
    (∀ p : Plugin LocalHost, let report := RegistryReport.ofPlugin p
      fs.Delivers destination (report.render? .json color) ↔
        fs.Delivers destination (report.render? .human color) ∧
          ∀ m ∈ p.modules.values, ∀ name ∈ m.location.names, WellFormed name) ∧
    ∀ (files : FileSystem) (extension : String) (lists : List String),
      let report : DiscoveryReport := ⟨lists, lists.flatMap (Discovery.found files extension)⟩
      fs.Delivers destination (report.render? .json color) ↔
        fs.Delivers destination (report.render? .human color) ∧
          ∀ path ∈ report.modules, ∀ name ∈ path.parts, WellFormed name := by
  refine ⟨fun p => ?_, fun files extension lists => ?_⟩
  · simp only [RegistryReport.delivers_json_iff]
    refine and_congr_right fun _ => ?_
    simp only [RegistryReport.ofPlugin, List.forall_mem_map, Location.isSome_text?_path]
  · simp only [DiscoveryReport.delivers_json_iff, Path.isSome_text?_iff]

/-- A directory with one module, the name of which is not UTF-8. -/
def oddFiles : FileSystem :=
  ⟨.dir [0x6D] (.file [0xFF, 0x2E, 0x68, 0x6C, 0x74, 0x6F] (.module []) .empty) .empty, ⟨[]⟩⟩

/-- A process with these files. -/
def odd : Environment := ⟨[], none, .error .notFound, oddFiles, .epoch⟩

/-- A plugin that has loaded every module below the directory. -/
def Plugin.oddlyLoaded : Plugin LocalHost :=
  (bare (.new 0 "" true)).after [.loadBelow odd "/m"]

theorem Plugin.reached_oddlyLoaded : oddlyLoaded.Reached :=
  (reached_bare (.new 0 "" true)).after _

/-- What is delivered for people is not always delivered in JSON, neither when a module was loaded
nor when it is found. -/
theorem formats_differ :
    (¬ ∀ p : Plugin LocalHost, p.Reached →
      ∀ (fs : FileSystem) (destination : Option Path) (color : Bool),
        fs.Delivers destination ((RegistryReport.ofPlugin p).render? .human color) →
          fs.Delivers destination ((RegistryReport.ofPlugin p).render? .json color)) ∧
    ¬ ∀ (files : FileSystem) (extension : String) (lists : List String) (fs : FileSystem)
      (destination : Option Path) (color : Bool),
      let report : DiscoveryReport := ⟨lists, lists.flatMap (Discovery.found files extension)⟩
      fs.Delivers destination (report.render? .human color) →
        fs.Delivers destination (report.render? .json color) := by
  refine ⟨fun h => ?_, fun h => ?_⟩
  · have hjson := h _ Plugin.reached_oddlyLoaded oddFiles none false ⟨_, rfl⟩
    have htexts := (RegistryReport.delivers_json_iff.mp hjson).2
    revert htexts
    decide +kernel
  · have hjson := h oddFiles "hlto" ["/m"] oddFiles none false ⟨_, rfl⟩
    have htexts := (DiscoveryReport.delivers_json_iff.mp hjson).2
    revert htexts
    decide +kernel

end TrafficAnalyzers
