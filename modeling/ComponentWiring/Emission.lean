import ComponentWiring.Pipeline
import ComponentWiring.File.Disk
import ComponentWiring.Settings.Basic
import ComponentWiring.Toml.Writer

/-! # Artifacts

For an order of components, each component gets a registration, written once and never changed, and
a manifest lists the order.

* `Artifact.stem`: the file name of a registration without its ending.
* `Artifact.registration`, `Artifact.manifest`: the texts.
* `Workspace`: a disk, the components handled so far, and the events.
* `Emission.toDisk`: writes the artifacts of an order.
* `Emission.dryRun`: counts them only.
-/

namespace ComponentWiring
open Data
set_option autoImplicit false

/-! ## The artifacts -/

namespace Artifact

def header : String := "# Generated by influx. Do not edit."

/-- A character that stands for itself in a file name. -/
def isSafe (c : Char) : Bool :=
  ('A' ≤ c && c ≤ 'Z') || ('a' ≤ c && c ≤ 'z') || ('0' ≤ c && c ≤ '9') ||
  c = '.' || c = '_' || c = '-' || c = '$'

/-- A byte as a percent sign and two hexadecimal digits. -/
def percentByte (byte : UInt8) : List Char :=
  ['%', Toml.hexUpper (byte.toNat / 16), Toml.hexUpper byte.toNat]

/-- How a character stands in a file name: an unsafe one by the bytes of its encoding. -/
def stemChar (c : Char) : List Char :=
  if isSafe c then [c] else (String.utf8EncodeChar c).flatMap percentByte

/-- The file name of a component's registration without its ending. -/
def stem (a : Identity) : String := String.ofList (a.name.toList.flatMap stemChar)

def registrationPath (emit : Settings.Emit) (a : Identity) : String :=
  File.Path.join emit.registrationPath (stem a ++ ".registration")

def registration (a : Identity) : String :=
  header ++ "\n" ++ Toml.pair "identity" (Toml.string a.name) ++
    Toml.pair "simple_name" (Toml.string a.simpleName)

def manifest (order : List Identity) : String :=
  header ++ "\n" ++ String.join (order.map fun a => a.name ++ "\n")

end Artifact

/-! ## Workspaces -/

/-- A disk, the components whose registrations were handled, and the events so far. -/
structure Workspace (σ : Type) where
  disk : σ
  handled : Seen
  events : List Event

namespace Workspace

/-- A workspace before any emission. -/
def on {σ : Type} (disk : σ) : Workspace σ := ⟨disk, Seen.empty, []⟩

def log {σ : Type} (event : Event) (w : Workspace σ) : Workspace σ :=
  { w with events := w.events ++ [event] }

/-- One more component handled. -/
def handle {σ : Type} (a : Identity) (w : Workspace σ) : Workspace σ :=
  { w with handled := w.handled.insert a }

end Workspace

namespace Emission

/-- Writes a registration that is not there yet, and tells whether it did. -/
def register {σ : Type} (disk : File.Disk σ) (emit : Settings.Emit) (a : Identity)
    (w : Workspace σ) : Except Error Bool × Workspace σ :=
  let path := Artifact.registrationPath emit a
  if disk.exists? path w.disk then
    (.ok false,
      w.log ⟨.trace, "Registration already exists", [("identity", .text a.name)]⟩)
  else
    match disk.write path (Artifact.registration a) w.disk with
    | (.ok _, s) =>
      (.ok true,
        { w with disk := s }.log
          ⟨.trace, "Registration written", [("identity", .text a.name), ("path", .text path)]⟩)
    | (.error fault, s) =>
      (.error (Context.emit s!"Failed to write registration {path}" fault.message),
        { w with disk := s })

/-- Registers the components that were not handled before, in order. -/
def registerAll {σ : Type} (disk : File.Disk σ) (emit : Settings.Emit) :
    List Identity → EmitSummary → Workspace σ → Except Error EmitSummary × Workspace σ
  | [], summary, w => (.ok summary, w)
  | a :: rest, summary, w =>
    if w.handled.has a then registerAll disk emit rest summary.addSkipped w
    else
      match register disk emit a w with
      | (.ok true, w) => registerAll disk emit rest summary.addWritten (w.handle a)
      | (.ok false, w) => registerAll disk emit rest summary.addSkipped (w.handle a)
      | (.error e, w) => (.error e, w)

def writtenEvent (emit : Settings.Emit) (summary : EmitSummary) : Event :=
  ⟨.debug, "Artifacts emitted",
    [("written", .natural summary.written), ("skipped", .natural summary.skipped),
     ("manifest", .text emit.manifestPath)]⟩

def writeManifest {σ : Type} (disk : File.Disk σ) (emit : Settings.Emit) (order : List Identity)
    (w : Workspace σ) : Except Error Unit × Workspace σ :=
  match disk.write emit.manifestPath (Artifact.manifest order) w.disk with
  | (.ok _, s) => (.ok (), { w with disk := s })
  | (.error fault, s) =>
    (.error (Context.emit s!"Failed to write manifest {emit.manifestPath}" fault.message),
      { w with disk := s })

/-- Writes the artifacts of an order: the directory of the registrations, the registrations of the
components not handled before, and the manifest. -/
def toDisk {σ : Type} (disk : File.Disk σ) (emit : Settings.Emit) (order : List Identity)
    (w : Workspace σ) : Except Error EmitSummary × Workspace σ :=
  match disk.makeDirectories emit.registrationPath w.disk with
  | (.error fault, s) =>
    (.error (Context.emit s!"Failed to create {emit.registrationPath}" fault.message),
      { w with disk := s })
  | (.ok _, s) =>
    match registerAll disk emit order EmitSummary.zero { w with disk := s } with
    | (.error e, w) => (.error e, w)
    | (.ok summary, w) =>
      match writeManifest disk emit order w with
      | (.error e, w) => (.error e, w)
      | (.ok _, w) => (.ok summary, w.log (writtenEvent emit summary))

/-- Counts the components of an order as written or, if they were handled before, as skipped. -/
def count : List Identity → EmitSummary → Seen → EmitSummary × Seen
  | [], summary, handled => (summary, handled)
  | a :: rest, summary, handled =>
    if handled.has a then count rest summary.addSkipped handled
    else count rest summary.addWritten (handled.insert a)

def dryRunEvent (order : List Identity) : Event :=
  ⟨.debug, "Dry run, nothing written", [("components", .natural order.length)]⟩

def dryRun {σ : Type} (order : List Identity) (w : Workspace σ) :
    Except Error EmitSummary × Workspace σ :=
  let counted := count order EmitSummary.zero w.handled
  (.ok counted.1, { w with handled := counted.2 }.log (dryRunEvent order))

def run {σ : Type} (disk : File.Disk σ) (emit : Settings.Emit) (order : List Identity)
    (w : Workspace σ) : Except Error EmitSummary × Workspace σ :=
  if emit.enabled then toDisk disk emit order w else dryRun order w

end Emission

end ComponentWiring
