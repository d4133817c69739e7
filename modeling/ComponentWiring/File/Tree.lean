import ComponentWiring.File.Path

/-! # File trees

A tree of directories, files and links, with a working directory from which relative paths lead.
Links are followed where a path leads through one.

* `Place`, `Node`, `Tree`: what stands where.
* `Fault`: why a path cannot be used as wanted.
* `Tree.lead`: what a path leads to.
* `Tree.exists?`, `Tree.isFile`, `Tree.isDirectory`, `Tree.readText`: looking.
* `Tree.filesUnder`, `Tree.directoriesUnder`: what there is below a directory.
* `Tree.write`, `Tree.makeDirectory`: changing.
-/

namespace ComponentWiring.File
set_option autoImplicit false

/-- The names on the way from the root. -/
abbrev Place := List String

/-- What stands at a place. -/
inductive Node where
  | file (bytes : List UInt8)
  | directory
  | link (target : String)
  deriving DecidableEq

/-- Why a path cannot be used as wanted. -/
inductive Fault where
  | missing
  | alreadyThere
  | notDirectory
  | isDirectory
  | nameTooLong
  | tooManyLinks
  | nulInName
  | notText
  deriving DecidableEq

def Fault.message : Fault → String
  | missing => "No such file or directory (os error 2)"
  | alreadyThere => "File exists (os error 17)"
  | notDirectory => "Not a directory (os error 20)"
  | isDirectory => "Is a directory (os error 21)"
  | nameTooLong => "File name too long (os error 36)"
  | tooManyLinks => "Too many levels of symbolic links (os error 40)"
  | nulInName => "file name contained an unexpected NUL byte"
  | notText => "stream did not contain valid UTF-8"

/-- What stands at the places below the root, and the place from which relative paths lead. -/
structure Tree where
  nodes : List (Place × Node)
  workingDirectory : Place
  deriving DecidableEq

/-- Where a path leads: to something, or to a free name in a directory. -/
inductive Target where
  | there (place : Place) (node : Node)
  | free (place : Place)
  deriving DecidableEq

namespace Tree

/-- What stands at a place; the root is a directory. -/
def node? (tree : Tree) (place : Place) : Option Node :=
  if place = [] then some .directory else (tree.nodes.find? (·.1 = place)).map (·.2)

def put (tree : Tree) (place : Place) (node : Node) : Tree :=
  { tree with nodes := tree.nodes.filter (·.1 ≠ place) ++ [(place, node)] }

/-! ## Following paths -/

/-- The greatest length of a name in bytes. -/
def nameLimit : Nat := 255

/-- The greatest length of a path in bytes. -/
def pathLimit : Nat := 4095

/-- How many links a path may lead through. -/
def linkLimit : Nat := 40

/-- Where the segments of a path lead from a place. A link at the end is followed if wanted. -/
def walk (tree : Tree) (followLast : Bool) : Nat → Place → List String → Except Fault Target
  | _, place, [] =>
    match tree.node? place with
    | some node => .ok (.there place node)
    | none => .error .missing
  | links, place, segment :: rest =>
    if tree.node? place ≠ some .directory then .error .notDirectory
    else if segment = "." then walk tree followLast links place rest
    else if segment = ".." then walk tree followLast links place.dropLast rest
    else if nameLimit < segment.utf8ByteSize then .error .nameTooLong
    else
      match tree.node? (place ++ [segment]) with
      | none => if rest = [] then .ok (.free (place ++ [segment])) else .error .missing
      | some (.link target) =>
        if rest = [] ∧ followLast = false then
          .ok (.there (place ++ [segment]) (.link target))
        else
          match links with
          | 0 => .error .tooManyLinks
          | links + 1 =>
            walk tree followLast links (if Path.isAbsolute target then [] else place)
              (Path.segments target ++ rest)
      | some _ => walk tree followLast links (place ++ [segment]) rest
termination_by links _ segments => (links, segments.length)

/-- Whether a path ends in a slash, so that it can only lead to a directory. -/
def endsInSlash (path : String) : Bool := path.toList.getLast? = some '/'

/-- Where a path leads. -/
def lead (tree : Tree) (followLast : Bool) (path : String) (segments : List String) :
    Except Fault Target :=
  if path.toList.contains '\x00' then .error .nulInName
  else if path = "" then .error .missing
  else if pathLimit < path.utf8ByteSize then .error .nameTooLong
  else
    tree.walk followLast linkLimit
      (if Path.isAbsolute path then [] else tree.workingDirectory) segments

/-- The segments of a path, where a slash at the end asks for a directory. -/
def closedSegments (path : String) : List String :=
  Path.segments path ++ if endsInSlash path then ["."] else []

/-- What a path leads to, links followed. -/
def find (tree : Tree) (path : String) : Except Fault (Place × Node) :=
  match tree.lead true path (closedSegments path) with
  | .ok (.there place node) => .ok (place, node)
  | .ok (.free _) => .error .missing
  | .error fault => .error fault

/-- The tree with another directory from which relative paths lead. -/
def seenFrom (tree : Tree) (place : Place) : Tree := { tree with workingDirectory := place }

/-! ## Looking -/

def exists? (tree : Tree) (path : String) : Bool := (tree.find path).toBool

def isFile (tree : Tree) (path : String) : Bool :=
  match tree.find path with
  | .ok (_, .file _) => true
  | _ => false

def isDirectory (tree : Tree) (path : String) : Bool :=
  match tree.find path with
  | .ok (_, .directory) => true
  | _ => false

def readText (tree : Tree) (path : String) : Except Fault String :=
  match tree.find path with
  | .error fault => .error fault
  | .ok (_, .file bytes) =>
    match String.fromUTF8? ⟨bytes.toArray⟩ with
    | some text => .ok text
    | none => .error .notText
  | .ok _ => .error .isDirectory

/-- The names of the files at any depth below a directory, as paths that start with the path of the
directory. Links are not followed. -/
def filesUnder (tree : Tree) (path : String) : List String :=
  match tree.find path with
  | .ok (place, .directory) =>
    tree.nodes.filterMap fun (at', node) =>
      match node with
      | .file _ =>
        if place.isPrefixOf at' then
          some (Path.join path (Text.join "/" (at'.drop place.length)))
        else none
      | _ => none
  | _ => []

/-- A directory and the directories at any depth below it, as paths that start with the path of the
directory. Links are not followed. -/
def directoriesUnder (tree : Tree) (path : String) : List String :=
  match tree.find path with
  | .ok (place, .directory) =>
    path :: tree.nodes.filterMap fun (at', node) =>
      match node with
      | .directory =>
        if place.isPrefixOf at' ∧ at' ≠ place then
          some (Path.join path (Text.join "/" (at'.drop place.length)))
        else none
      | _ => none
  | _ => []

/-! ## Changing -/

/-- The tree with a file of the given bytes at the end of a path. A link at the end is followed,
also if nothing is there yet. -/
def write (tree : Tree) (path : String) (bytes : List UInt8) : Except Fault Tree :=
  match tree.lead true path (Path.segments path) with
  | .error fault => .error fault
  | .ok (.there _ .directory) => .error .isDirectory
  | .ok (.there place _) =>
    if endsInSlash path then .error .isDirectory else .ok (tree.put place (.file bytes))
  | .ok (.free place) =>
    if endsInSlash path then .error .isDirectory else .ok (tree.put place (.file bytes))

/-- The tree with a new directory at the end of a path. -/
def makeDirectory (tree : Tree) (path : String) : Except Fault Tree :=
  match tree.lead false path (Path.segments path) with
  | .error fault => .error fault
  | .ok (.there _ _) => .error .alreadyThere
  | .ok (.free place) => .ok (tree.put place .directory)

end Tree

end ComponentWiring.File
