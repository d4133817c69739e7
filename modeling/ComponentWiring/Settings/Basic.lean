import ComponentWiring.Event
import ComponentWiring.File.Path
import ComponentWiring.Report.Text

/-! # Settings

* `Settings`: the settings in four sections, each with its defaults.
* `Settings.Emit.manifestPath`, `Settings.Emit.registrationPath`: where artifacts go.
* `Settings.read`, `Settings.toValue`: settings as data. Whatever is left out has its default.
* `Settings.withLogging`, … , `Settings.withFormat`: settings with one thing changed.
* `Settings.levelOfName`: the level of a name.
* `Settings.check`, `Settings.checked`: the faults that settings can have.
-/

namespace ComponentWiring
open Data
set_option autoImplicit false

/-! ## Sections -/

/-- What is logged, and where. -/
structure Settings.Logging where
  level : String := "info"
  asJson : Bool := false
  file : Option String := none
  deriving DecidableEq

/-- Where declaration documents are. -/
structure Settings.Scan where
  inputs : List String := ["components"]
  extension : String := "toml"
  deriving DecidableEq

/-- Where artifacts are written, and whether they are. -/
structure Settings.Emit where
  outputDirectory : String := "target/influx"
  manifestName : String := "components.manifest"
  registrationDirectory : String := "registrations"
  enabled : Bool := true
  deriving DecidableEq

/-- How a build is reported. -/
structure Settings.Reporting where
  format : Report.Format := .human
  deriving DecidableEq

/-- All settings. -/
structure Settings where
  logging : Settings.Logging := {}
  scan : Settings.Scan := {}
  emit : Settings.Emit := {}
  report : Settings.Reporting := {}
  deriving DecidableEq

namespace Settings

def Emit.manifestPath (emit : Emit) : String :=
  File.Path.join emit.outputDirectory emit.manifestName

/-- The path of the directory of the registrations. -/
def Emit.registrationPath (emit : Emit) : String :=
  File.Path.join emit.outputDirectory emit.registrationDirectory

/-! ## Changes -/

def withLogging (logging : Logging) (settings : Settings) : Settings := { settings with logging }

def withLevel (level : String) (settings : Settings) : Settings :=
  { settings with logging := { settings.logging with level } }

def withInputs (inputs : List String) (settings : Settings) : Settings :=
  { settings with scan := { settings.scan with inputs } }

def withExtension (extension : String) (settings : Settings) : Settings :=
  { settings with scan := { settings.scan with extension } }

def withOutputDirectory (outputDirectory : String) (settings : Settings) : Settings :=
  { settings with emit := { settings.emit with outputDirectory } }

/-- The settings where artifacts are written or not. -/
def withEmission (enabled : Bool) (settings : Settings) : Settings :=
  { settings with emit := { settings.emit with enabled } }

def withFormat (format : Report.Format) (settings : Settings) : Settings :=
  { settings with report := { settings.report with format } }

/-! ## As data -/

def Logging.toValue (logging : Logging) : Value :=
  .record
    [("level", .text logging.level), ("json_format", .bool logging.asJson),
     ("file_output", match logging.file with
        | some path => .text path
        | none => .null)]

def Scan.toValue (scan : Scan) : Value :=
  .record
    [("input_dirs", .list (scan.inputs.map .text)), ("extension", .text scan.extension)]

def Emit.toValue (emit : Emit) : Value :=
  .record
    [("output_dir", .text emit.outputDirectory), ("manifest_name", .text emit.manifestName),
     ("registration_dir", .text emit.registrationDirectory), ("enabled", .bool emit.enabled)]

def Reporting.toValue (report : Reporting) : Value :=
  .record [("format", report.format.toValue)]

def toValue (settings : Settings) : Value :=
  .record
    [("logging", settings.logging.toValue), ("scan", settings.scan.toValue),
     ("emit", settings.emit.toValue), ("report", settings.report.toValue)]

def Logging.shape : Shape Logging Logging where
  name := "LoggingConfig"
  fields :=
    [⟨"level", fun v d => do pure { d with level := ← Reader.string v }, true⟩,
     ⟨"json_format", fun v d => do pure { d with asJson := ← Reader.boolean v }, true⟩,
     ⟨"file_output", fun v d => do
        pure { d with file := ← Reader.optional Reader.path v }, true⟩]
  draft := {}
  finish := .ok

def Scan.shape : Shape Scan Scan where
  name := "ScanConfig"
  fields :=
    [⟨"input_dirs", fun v d => do pure { d with inputs := ← Reader.list Reader.path v }, true⟩,
     ⟨"extension", fun v d => do pure { d with extension := ← Reader.string v }, true⟩]
  draft := {}
  finish := .ok

def Emit.shape : Shape Emit Emit where
  name := "EmitConfig"
  fields :=
    [⟨"output_dir", fun v d => do pure { d with outputDirectory := ← Reader.path v }, true⟩,
     ⟨"manifest_name", fun v d => do pure { d with manifestName := ← Reader.string v }, true⟩,
     ⟨"registration_dir", fun v d => do
        pure { d with registrationDirectory := ← Reader.string v }, true⟩,
     ⟨"enabled", fun v d => do pure { d with enabled := ← Reader.boolean v }, true⟩]
  draft := {}
  finish := .ok

def Reporting.shape (form : Form) : Shape Reporting Reporting where
  name := "ReportConfig"
  fields :=
    [⟨"format", fun v d => do pure { d with format := ← Report.Format.read form v }, true⟩]
  draft := {}
  finish := .ok

def Logging.read (form : Form) : Reader Logging := structured form Logging.shape

def Scan.read (form : Form) : Reader Scan := structured form Scan.shape

def Emit.read (form : Form) : Reader Emit := structured form Emit.shape

def Reporting.read (form : Form) : Reader Reporting := structured form (Reporting.shape form)

def shape (form : Form) : Shape Settings Settings where
  name := "AppConfig"
  fields :=
    [⟨"logging", fun v d => do pure { d with logging := ← Logging.read form v }, true⟩,
     ⟨"scan", fun v d => do pure { d with scan := ← Scan.read form v }, true⟩,
     ⟨"emit", fun v d => do pure { d with emit := ← Emit.read form v }, true⟩,
     ⟨"report", fun v d => do pure { d with report := ← Reporting.read form v }, true⟩]
  draft := {}
  finish := .ok

def read (form : Form) : Reader Settings := structured form (shape form)

/-! ## Faults -/

/-- A fault of the settings, without an error behind it. -/
def fault (message : String) : Error := .configuration message none

def levelOfName (name : String) : Except Error Level :=
  match Text.lowercase name with
  | "trace" => .ok .trace
  | "debug" => .ok .debug
  | "info" => .ok .info
  | "warn" => .ok .warn
  | "warning" => .ok .warn
  | "error" => .ok .error
  | _ =>
    .error (fault s!"Invalid log level: {name}. Use trace, debug, info, warn, or error")

/-- An extension is not blank and does not start with a point. -/
def Scan.check (scan : Scan) : Except Error Unit :=
  if Text.trim scan.extension = "" then
    .error (fault "Declaration file extension cannot be empty")
  else if scan.extension.toList.head? = some '.' then
    .error (fault s!"Declaration file extension must not start with a dot: {scan.extension}")
  else .ok ()

/-- The name of the manifest is not blank and not the one of the registrations. -/
def Emit.check (emit : Emit) : Except Error Unit :=
  if Text.trim emit.manifestName = "" then .error (fault "Manifest file name cannot be empty")
  else if emit.registrationDirectory = emit.manifestName then
    .error (fault "Manifest and registration directory cannot share a name")
  else .ok ()

/-- The first fault of settings: in the scan, in the artifacts, or in the level. -/
def check (settings : Settings) : Except Error Unit := do
  settings.scan.check
  settings.emit.check
  let _ ← levelOfName settings.logging.level
  pure ()

/-- The settings, unless they have a fault. -/
def checked (settings : Settings) : Except Error Settings := do
  settings.check
  pure settings

end Settings

end ComponentWiring
