import ComponentWiring.Build
import ComponentWiring.Document
import ComponentWiring.Emission

/-! # Scanning for declaration documents

Inputs are files, which are taken as they are, and directories, below which every file with the
right extension is a document. Documents are found once and delivered in the order of their paths.

* `Scan.discover`: the documents of inputs, unless a directory cannot be listed.
* `Scan.batch`: the declarations of a document.
* `Scan.deliveryBy`, `Scan.delivery`: a document as a delivery of a build.
-/

namespace ComponentWiring.Scan
open Data
set_option autoImplicit false

/-! ## Finding documents -/

/-- What the system tells where it does not list a directory, by the path of the directory. -/
abbrev Refusals := String → Option String

/-- The documents of an input. The first directory that cannot be listed is an error. -/
def documentsOf (tree : File.Tree) (refusals : Refusals) (extension input : String) :
    Except Error (List String) :=
  if tree.isFile input then .ok [input]
  else if tree.isDirectory input then
    match (tree.directoriesUnder input).findSome? refusals with
    | some refusal => .error (Context.scan input refusal)
    | none =>
      .ok ((tree.filesUnder input).filter fun path => File.Path.extension? path = some extension)
  else .error (Context.scan input "input path does not exist")

def documentsOfAll (tree : File.Tree) (refusals : Refusals) (extension : String) :
    List String → Except Error (List String)
  | [] => .ok []
  | input :: inputs => do
    let first ← documentsOf tree refusals extension input
    let rest ← documentsOfAll tree refusals extension inputs
    pure (first ++ rest)

/-- The paths without those that have the same parts as the one in front of them. -/
def distinct : List String → List String
  | [] => []
  | path :: paths =>
    path :: (distinctAfter path paths)
where
  /-- The paths behind a given one. -/
  distinctAfter (before : String) : List String → List String
    | [] => []
    | path :: paths =>
      if File.Path.same before path then distinctAfter before paths
      else path :: distinctAfter path paths

/-- Paths in order, each once. -/
def arranged (paths : List String) : List String := distinct (paths.mergeSort File.Path.le)

def foundEvent (path : String) : Event :=
  ⟨.debug, "Declaration document discovered", [("path", .text path)]⟩

def foundEvents (paths : List String) : List Event :=
  paths.map foundEvent ++
    [⟨.debug, "Declaration discovery finished", [("documents", .natural paths.length)]⟩]

/-- The documents of inputs, in order and each once. -/
def discover (tree : File.Tree) (scan : Settings.Scan) (refusals : Refusals := fun _ => none) :
    Logged (Except Error (List String)) :=
  match documentsOfAll tree refusals scan.extension scan.inputs with
  | .error e => .silent (.error e)
  | .ok paths => ⟨.ok (arranged paths), foundEvents (arranged paths)⟩

theorem events_of_discover {tree : File.Tree} {scan : Settings.Scan} {refusals : Refusals}
    {paths : List String} (h : (discover tree scan refusals).value = .ok paths) :
    (discover tree scan refusals).events = foundEvents paths := by
  unfold discover at h ⊢
  split at h
  · cases h
  · cases h
    rfl

/-! ## Delivering documents -/

/-- The text at a path of a tree once events were logged, or what the system tells where it gives
none. -/
abbrev Reading := List Event → File.Tree → String → Except String String

/-- Reading what stands in the tree, whatever was logged. -/
def plainly : Reading := fun _ tree path =>
  match tree.readText path with
  | .error fault => .error fault.message
  | .ok text => .ok text

/-- The declarations of a document that was read, or the error that it cannot be. -/
def batchOf (path : String) : Except String String → Except Error Batch
  | .error message => .error (Context.scan path s!"cannot read document: {message}")
  | .ok text => (Document.declarations path text).map fun ds => ⟨some path, ds⟩

def batch (tree : File.Tree) (path : String) : Except Error Batch :=
  batchOf path (plainly [] tree path)

def scannedEvent (path : String) (batch : Batch) : Event :=
  ⟨.debug, "Declaration document scanned",
    [("path", .text path), ("declarations", .natural batch.declarations.length)]⟩

/-- A document as a delivery of a build, as it is read then. -/
def deliveryBy (reading : Reading) (path : String) : Delivery (Workspace File.Tree) := fun w =>
  match batchOf path (reading w.events w.disk path) with
  | .error e => (.error e, w)
  | .ok b => (.ok b, w.log (scannedEvent path b))

/-- A document as a delivery of a build, as it stands in the tree. -/
def delivery : String → Delivery (Workspace File.Tree) := deliveryBy plainly

theorem delivery_of_batch {path : String} {w : Workspace File.Tree} {b : Batch}
    (h : batch w.disk path = .ok b) : delivery path w = (.ok b, w.log (scannedEvent path b)) := by
  have hread : batchOf path (plainly w.events w.disk path) = .ok b := h
  rw [delivery, deliveryBy, hread]

theorem delivery_of_unread {path : String} {w : Workspace File.Tree} {e : Error}
    (h : batch w.disk path = .error e) : delivery path w = (.error e, w) := by
  have hread : batchOf path (plainly w.events w.disk path) = .error e := h
  rw [delivery, deliveryBy, hread]

end ComponentWiring.Scan
