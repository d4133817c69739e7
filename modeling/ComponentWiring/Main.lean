import ComponentWiring.CommandLine.Run
import ComponentWiring.Report.Timestamp
import ComponentWiring.Text.Utf8
import Std.Time.DateTime.Timestamp

/-! # The program

The program takes what a run looks at from the disk into a file tree, runs on the tree, and brings
what the run changed back to the disk.

* `Host.environment`, `Host.timestamp`, `Host.home?`: what the system tells.
* `Host.take`: from the disk into a tree.
* `Host.bring`: from a tree to the disk.
* `main`: the program.
-/

namespace ComponentWiring.Host
open File
set_option autoImplicit false

/-! ## What the system tells -/

/-- A variable as it is given, with its name in front of the first equals sign. -/
def variableOf (given : List Char) : String × String :=
  (String.ofList (given.takeWhile (· ≠ '=')),
    String.ofList ((given.dropWhile (· ≠ '=')).drop 1))

def environment : IO Settings.Environment := do
  let bytes ← IO.FS.readBinFile "/proc/self/environ"
  let given := Text.splitOn '\x00' (Text.Utf8.shown bytes.data.toList).toList
  pure ((given.filter (· ≠ [])).map variableOf)

def timestamp : IO String := do
  let now ← Std.Time.Timestamp.now
  let nanoseconds := now.toNanosecondsSinceUnixEpoch.val.toNat
  pure (Report.Timestamp.text (nanoseconds / 1000000000) (nanoseconds % 1000000000))

/-- The number of the user whose program this is, from what the system tells of a process. -/
def userOf? (status : String) : Option String :=
  ((status.splitOn "\n").find? (·.startsWith "Uid:")).bind fun line =>
    ((line.splitOn "\t").drop 1).head?

/-- The home directory of a user in a list of users, a line for each with parts between colons. -/
def homeIn? (users user : String) : Option String :=
  (users.splitOn "\n").findSome? fun line =>
    match line.splitOn ":" with
    | [_, _, number, _, _, home, _] => if number = user ∧ home ≠ "" then some home else none
    | _ => none

/-- The home directory that the system has for the user. -/
def home? : IO (Option String) := do
  try
    let status ← IO.FS.readFile "/proc/self/status"
    let users ← IO.FS.readFile "/etc/passwd"
    pure ((userOf? status).bind (homeIn? users))
  catch _ => pure none

/-! ## From the disk -/

def pathOf (place : Place) : String := "/" ++ Text.join "/" place

/-- The place that a path leads to on the disk, links followed. -/
def real? (path : String) : IO (Option Place) := do
  try
    pure (some (Path.segments (← IO.FS.realPath path).toString))
  catch _ => pure none

/-- A tree with a directory at a place, and with all directories on the way to it. -/
def withDirectories (place : Place) (tree : Tree) : Tree :=
  (List.range (place.length + 1)).foldl
    (fun tree n =>
      if (tree.node? (place.take n)).isSome then tree else tree.put (place.take n) .directory)
    tree

/-- Takes the node at a place that no link is on the way to. -/
def takeNode (place : Place) (tree : Tree) : IO Tree := do
  let tree := withDirectories place.dropLast tree
  if (tree.node? place).isSome then pure tree
  else
    let file := (← IO.currentDir) / pathOf place
    match (← file.symlinkMetadata).type with
    | .dir => pure (tree.put place .directory)
    | .file => pure (tree.put place (.file (← IO.FS.readBinFile file).data.toList))
    | _ => pure tree

/-- Takes a link, if the place is one, together with what it leads to. -/
def takeLink (place : Place) (tree : Tree) : IO Tree := do
  match ← real? (pathOf place) with
  | none => pure tree
  | some target =>
    let tree ← takeNode target tree
    if target = place then pure tree else pure (tree.put place (.link (pathOf target)))

/-- Takes everything below a directory, without following links. -/
partial def takeBelow (place : Place) (tree : Tree) : IO Tree := do
  let directory := (← IO.currentDir) / pathOf place
  let mut tree := tree
  for entry in ← directory.readDir do
    let below := place ++ [entry.fileName]
    tree ← takeLink below tree
    if (← entry.path.symlinkMetadata).type == .dir then tree ← takeBelow below tree
  pure tree

/-- Takes what the segments of a path lead to from a place. -/
def takeSegments : Place → List String → Tree → IO (Option Place × Tree)
  | place, [], tree => pure (some place, tree)
  | place, segment :: rest, tree => do
    let tree ← takeLink (if segment = ".." then place.dropLast else place ++ [segment]) tree
    match ← real? (pathOf place ++ "/" ++ segment) with
    | some next => takeSegments next rest tree
    | none => pure (none, tree)

/-- Takes what a path leads to and everything below it. -/
def take (path : String) (tree : Tree) : IO Tree := do
  let start := if Path.isAbsolute path then [] else tree.workingDirectory
  let (found, tree) ← takeSegments start ((Path.segments path).filter (· ≠ ".")) tree
  match found with
  | some place => if tree.node? place = some .directory then takeBelow place tree else pure tree
  | none => pure tree

def takeAll (paths : List String) (tree : Tree) : IO Tree :=
  paths.foldlM (fun tree path => take path tree) tree

/-- The tree with only the working directory. -/
def bare : IO Tree := do
  let place := Path.segments (← IO.currentDir).toString
  pure (withDirectories place ⟨[], place⟩)

/-! ## To the disk -/

/-- Makes a changed node. -/
def bringNode (place : Place) (node : Node) : IO Unit :=
  match node with
  | .directory => IO.FS.createDir (pathOf place)
  | .file bytes => IO.FS.writeBinFile (pathOf place) ⟨bytes.toArray⟩
  | .link _ => pure ()

/-- Makes everything in which a tree differs from an earlier one. -/
def bring (before after : Tree) : IO Unit :=
  after.nodes.forM fun (place, node) =>
    if before.node? place = some node then pure () else bringNode place node

end ComponentWiring.Host

open ComponentWiring CommandLine Host in
def main (arguments : List String) : IO UInt32 := do
  let environment ← environment
  let options := match Request.ofArguments? arguments with
    | some (.build options) => options
    | _ => {}
  let home ← home?
  let timestamp ← timestamp
  let start ← bare
  let start ← takeAll (settingsPaths options environment start home) start
  let start ← takeAll (buildPaths options environment start home) start
  let (ending, tree) := run arguments environment timestamp start (.usual home timestamp)
  bring start tree
  IO.print ending.output
  IO.eprint ending.complaint
  pure ending.status.toUInt32
