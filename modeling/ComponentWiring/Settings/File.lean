import ComponentWiring.File.Disk
import ComponentWiring.Settings.Layers
import ComponentWiring.Toml.Statement
import ComponentWiring.Toml.Writer

/-! # Settings files

* `Settings.load`: the settings of the defaults, a file and the environment.
* `Settings.written`: the text of a settings file.
* `Settings.save`: writes a settings file.
-/

namespace ComponentWiring.Settings
open Data
set_option autoImplicit false

/-! ## Where settings come from -/

def fileName : String := "influx.toml"

def directoryName : String := "influx"

/-- The beginning of the names of variables with settings, without the underscore behind it. -/
def variableStart : String := "INFLUX"

/-- The value of a variable; of several values the last one counts. -/
def lookup? (name : String) (environment : Environment) : Option String :=
  lookupField? name environment

def workingDirectory (tree : File.Tree) : String :=
  File.Path.ofParts (.root :: tree.workingDirectory.map .name)

/-- The user's home directory: the one that the environment names, or else the one that the system
has for the user. -/
def homeDirectory? (environment : Environment) (home : Option String) : Option String :=
  ((lookup? "HOME" environment).filter (· ≠ "")).or home

/-- The user's directory for settings: the one that the environment names, if its path is absolute,
or else one in the home directory. -/
def userDirectory? (environment : Environment) (home : Option String) : Option String :=
  match (lookup? "XDG_CONFIG_HOME" environment).filter File.Path.isAbsolute with
  | some directory => some directory
  | none =>
    (homeDirectory? environment home).map fun directory => File.Path.join directory ".config"

/-- The files in which settings are looked for, in order. -/
def candidates (tree : File.Tree) (environment : Environment) (home : Option String) :
    List String :=
  let here := workingDirectory tree
  [File.Path.join here fileName,
   File.Path.join (File.Path.join here directoryName) fileName] ++
  (userDirectory? environment home).toList.map fun directory =>
    File.Path.join (File.Path.join directory directoryName) fileName

def loadedEvent (path : String) : Event := ⟨.info, s!"Configuration loaded from {path}", []⟩

/-- The event that tells that a settings file is not there. -/
def notFoundEvent (path : String) : Event :=
  ⟨.warn, s!"Configuration file not found: {path}", []⟩

def notFound (path : String) : Error := .config s!"Configuration file not found: {path}"

/-- The settings file that is used, if any: the one that is given, which must be there, or else the
first of the candidates that is there. -/
def chosenFile (tree : File.Tree) (environment : Environment) (home : Option String) :
    Option String → Except Error (Option String)
  | some path => if tree.exists? path then .ok (some path) else .error (notFound path)
  | none => .ok ((candidates tree environment home).find? tree.exists?)

/-! ## Loading -/

/-- The error that a file is no source of settings. -/
def unreadable (message : String) (origin : Origin) : Error :=
  Context.configuration extracting s!"{message}\n in {origin.text}"

/-- The tree as seen from its working directory, and then from each directory that holds this one,
up to the root. -/
def lookouts (tree : File.Tree) : List File.Tree :=
  (List.range (tree.workingDirectory.length + 1)).reverse.map fun n =>
    tree.seenFrom (tree.workingDirectory.take n)

/-- The first of them from which a path leads to a file. An absolute path leads to the same from
all of them. -/
def lookout? (tree : File.Tree) (path : String) : Option File.Tree :=
  (lookouts tree).find? (·.isFile path)

/-- The layer of a settings file. A relative path that leads to no file from the working directory
stands for the file to which it leads from the nearest directory that holds this one. What leads to
no file from any of them has no settings. -/
def fileLayer (tree : File.Tree) (path : String) : Except Error Layered :=
  match lookout? tree path with
  | none => .ok (.record (.file (File.Path.relativeTo (workingDirectory tree) path)) [])
  | some seen =>
    let found := File.Path.join (workingDirectory seen) path
    let origin := Origin.file (File.Path.relativeTo (workingDirectory tree) found)
    match seen.readText path with
    | .error fault => .error (unreadable fault.message origin)
    | .ok text =>
      match Toml.read .v10 text with
      | .error line => .error (unreadable (notTomlMessage line) origin)
      | .ok fields => .ok (.of origin (.record fields))

/-- The layers of the defaults, a settings file and the environment. -/
def layers (tree : File.Tree) (environment : Environment) (start : String)
    (file : Option String) : Except Error Layered := do
  let below ← match file with
    | some path => do pure ((← fileLayer tree path).above defaultLayer)
    | none => .ok defaultLayer
  pure ((environmentLayer start environment).above below)

/-- The settings of the defaults, a settings file and the environment, without faults. -/
def loadFrom (tree : File.Tree) (environment : Environment) (start : String)
    (file : Option String) : Except Error Settings := do
  let settings ← extract (← layers tree environment start file)
  settings.checked

/-- The settings, where a file may be given. `start` is the beginning of the names of variables,
without the underscore behind it, and `home` the home directory that the system has for the user. -/
def load (tree : File.Tree) (environment : Environment) (start : String)
    (given : Option String) (home : Option String := none) : Logged (Except Error Settings) :=
  match chosenFile tree environment home given with
  | .error e => ⟨.error e, given.toList.map notFoundEvent⟩
  | .ok file =>
    ⟨loadFrom tree environment (start ++ "_") file, file.toList.map loadedEvent⟩

/-! ## Saving -/

def truth (b : Bool) : String := if b then "true" else "false"

def sectionText (name : String) (lines : List String) : String :=
  s!"[{name}]\n" ++ String.join lines

def written (settings : Settings) : String :=
  Text.join "\n"
    [sectionText "logging"
      ([Toml.pair "level" (Toml.string settings.logging.level),
        Toml.pair "json_format" (truth settings.logging.asJson)] ++
       settings.logging.file.toList.map fun path => Toml.pair "file_output" (Toml.string path)),
     sectionText "scan"
      [Toml.pair "input_dirs" (Toml.array settings.scan.inputs),
       Toml.pair "extension" (Toml.string settings.scan.extension)],
     sectionText "emit"
      [Toml.pair "output_dir" (Toml.string settings.emit.outputDirectory),
       Toml.pair "manifest_name" (Toml.string settings.emit.manifestName),
       Toml.pair "registration_dir" (Toml.string settings.emit.registrationDirectory),
       Toml.pair "enabled" (truth settings.emit.enabled)],
     sectionText "report" [Toml.pair "format" (Toml.string settings.report.format.name)]]

def save {σ : Type} (disk : File.Disk σ) (settings : Settings) (path : String) (s : σ) :
    Except Error Unit × σ :=
  match disk.write path settings.written s with
  | (.ok _, s) => (.ok (), s)
  | (.error fault, s) =>
    (.error (Context.io s!"Failed to write config file {path}" fault.message), s)

end ComponentWiring.Settings
