import ComponentWiring.Diagnostics
import ComponentWiring.Scan

/-! # Builds over a file tree

A build with settings scans its inputs, delivers every document as a batch of its own, and writes
the artifacts to the same tree. Violations are logged.

* `FileBuild.System`: what a system does that a tree does not tell.
* `FileBuild.effects`: what a pass does to a tree.
* `FileBuild.run`: a build with settings.
-/

namespace ComponentWiring.FileBuild
open Data
set_option autoImplicit false

/-- What a system does that a tree does not tell: the directories that it does not list, the texts
that it gives, and what becomes of changes. -/
structure System where
  refusals : Scan.Refusals := fun _ => none
  reading : Scan.Reading := Scan.plainly
  disk : File.Disk File.Tree := File.Tree.disk

/-- What a pass does to a tree. -/
def effects (emit : Settings.Emit) (disk : File.Disk File.Tree := File.Tree.disk) :
    Effects (Workspace File.Tree) where
  emit := Emission.run disk emit
  report := fun v w => w.log v.event
  log := Workspace.log

/-- The event that tells that a build over a number of documents starts. -/
def startEvent (emit : Settings.Emit) (documents : Nat) : Event :=
  ⟨.info, "Starting build",
    [("documents", .natural documents), ("output_dir", .text emit.outputDirectory),
     ("emit", .bool emit.enabled)]⟩

def runOn (settings : Settings) (timestamp : String) (documents : List String)
    (system : System) (w : Workspace File.Tree) : Except Error Report × Workspace File.Tree :=
  let (result, _, w) :=
    Build.run Rules.standard (effects settings.emit system.disk) timestamp
      (documents.map (Scan.deliveryBy system.reading)) Pipeline.fresh
      (w.log (startEvent settings.emit documents.length))
  (result, w)

/-- A build with settings: the documents are found before anything is built. -/
def run (settings : Settings) (timestamp : String) (tree : File.Tree) (system : System := {}) :
    Except Error Report × Workspace File.Tree :=
  let found := Scan.discover tree settings.scan system.refusals
  let w := { Workspace.on tree with events := found.events }
  match found.value with
  | .error e => (.error e, w)
  | .ok documents => runOn settings timestamp documents system w

end ComponentWiring.FileBuild
