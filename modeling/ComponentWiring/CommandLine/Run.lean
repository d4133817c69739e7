import ComponentWiring.CommandLine.Logging
import ComponentWiring.CommandLine.Request
import ComponentWiring.Settings.File

/-! # Runs of the program

A run takes arguments, an environment and a file tree. What the arguments give stands above the
settings of the file and the environment.

* `Options.applyTo`: settings with what the arguments give.
* `Ending`: how a run ends, with its `status`, `output` and `complaint`.
* `run`: a run.
* `settingsPaths`, `buildPaths`: what a run looks at.
-/

namespace ComponentWiring.CommandLine
set_option autoImplicit false

/-! ## Texts -/

def versionText : String := "influx 0.1.0\n"

def usage : String := "Usage: influx [OPTIONS] [INPUTS]...\n"

def helpText : String :=
  "Influx - Build-time dependency injection metadata compiler\n\n" ++ usage ++
  "\nArguments:\n" ++
  "  [INPUTS]...  Declaration files or directories (defaults to `scan.input_dirs`)\n" ++
  "\nOptions:\n" ++
  "  -c, --config <CONFIG>          Path to configuration file\n" ++
  "  -f, --format <FORMAT>          Report format (human or json)\n" ++
  "  -o, --output-dir <OUTPUT_DIR>  Root directory of generated artifacts\n" ++
  "      --no-emit                  Resolve and report without writing artifacts\n" ++
  "      --log-level <LOG_LEVEL>    Log level (trace, debug, info, warn, error)\n" ++
  "  -h, --help                     Print help\n" ++
  "  -V, --version                  Print version\n"

/-! ## Settings -/

def changed {α : Type} (change : α → Settings → Settings) (given : Option α)
    (settings : Settings) : Settings :=
  match given with
  | some x => change x settings
  | none => settings

def Options.applyTo (o : Options) (settings : Settings) : Settings :=
  let settings := if o.inputs = [] then settings else settings.withInputs o.inputs
  let settings := changed Settings.withFormat o.format settings
  let settings := changed Settings.withOutputDirectory o.outputDirectory settings
  let settings := if o.dryRun then settings.withEmission false else settings
  changed Settings.withLevel o.level settings

/-! ## Endings -/

/-- Why a run came to nothing: what was being done, and the error. -/
structure Failure where
  doing : String
  error : Error

def Failure.text (failure : Failure) : String := failure.error.terminalText failure.doing

/-- How a run ends: it tells a text, it refuses the arguments, it breaks off as the log file cannot
be opened, something fails, or it reports a build. -/
inductive Ending where
  | told (text : String)
  | refused
  | brokenOff
  | failed (failure : Failure)
  | built (report : Report) (format : Report.Format)

namespace Ending

/-- The exit status: 0 for success, 1 for a build that did not pass, 2 for a failure. A run that
breaks off has the status of a panic. -/
def status : Ending → Nat
  | told _ => 0
  | refused => 2
  | brokenOff => 101
  | failed _ => 2
  | built report _ => if report.summary.passed then 0 else 1

def output : Ending → String
  | told text => text
  | refused => ""
  | brokenOff => ""
  | failed _ => ""
  | built report format => report.render format ++ "\n"

def complaint : Ending → String
  | told _ => ""
  | refused => s!"error: unexpected arguments\n\n{usage}\nFor more information, try '--help'.\n"
  | brokenOff => "initializing rolling file appender failed\n"
  | failed failure => s!"Error: {failure.text}\n"
  | built _ _ => ""

end Ending

/-! ## Runs -/

/-- An error as the failure of what was being done. -/
def during {α : Type} (doing : String) : Except Error α → Except Failure α
  | .ok x => .ok x
  | .error e => .error ⟨doing, e⟩

/-- The settings of a build. `home` is the home directory that the system has for the user. -/
def settingsFor (o : Options) (environment : Settings.Environment) (tree : File.Tree)
    (home : Option String := none) : Except Failure Settings := do
  let loaded := Settings.load tree environment Settings.variableStart o.settingsFile home
  let settings ← during "Failed to load configuration" loaded.value
  during "Invalid command line overrides" (o.applyTo settings).checked

def runBuild (o : Options) (environment : Settings.Environment) (timestamp : String)
    (tree : File.Tree) (machine : Machine) : Ending × File.Tree :=
  match settingsFor o environment tree machine.home with
  | .error failure => (.failed failure, tree)
  | .ok settings =>
    match during "Failed to initialize logging" (Settings.levelOfName settings.logging.level) with
    | .error failure => (.failed failure, tree)
    | .ok _ =>
      match machine.startLogging settings.logging tree with
      | (false, tree) => (.brokenOff, tree)
      | (true, tree) =>
        let (result, w) := FileBuild.run settings timestamp tree machine.toSystem
        match during "Build failed" result with
        | .error failure => (.failed failure, w.disk)
        | .ok report => (.built report settings.report.format, w.disk)

/-- A run with arguments: how it ends, and the tree that it leaves. -/
def run (arguments : List String) (environment : Settings.Environment) (timestamp : String)
    (tree : File.Tree) (machine : Machine := .usual none timestamp) : Ending × File.Tree :=
  match Request.ofArguments? arguments with
  | none => (.refused, tree)
  | some .help => (.told helpText, tree)
  | some .version => (.told versionText, tree)
  | some (.build options) => runBuild options environment timestamp tree machine

/-! ## What a run looks at -/

/-- The paths that may lead to settings. A given path is looked for in all directories that hold the
working directory. -/
def settingsPaths (o : Options) (environment : Settings.Environment) (tree : File.Tree)
    (home : Option String) : List String :=
  match o.settingsFile with
  | some path =>
    (Settings.lookouts tree).map fun seen => File.Path.join (Settings.workingDirectory seen) path
  | none => Settings.candidates tree environment home

/-- The directory of the log file. -/
def logPaths (logging : Settings.Logging) : List String :=
  logging.file.toList.map fun path => (File.Path.parent? path).getD "."

/-- The paths that a build looks at besides, once its settings are known. -/
def buildPaths (o : Options) (environment : Settings.Environment) (tree : File.Tree)
    (home : Option String) : List String :=
  match settingsFor o environment tree home with
  | .error _ => []
  | .ok settings =>
    logPaths settings.logging ++ settings.scan.inputs ++
      [settings.emit.registrationPath, settings.emit.manifestPath]

end ComponentWiring.CommandLine
