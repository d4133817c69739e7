import ComponentWiring.Text.Split

/-! # Paths

A path is a text; what it means is the list of its parts. Doubled slashes, inner `.` parts and a
slash at the end say nothing.

* `Part`, `parts`: what a path means.
* `le`: the order of paths by their parts.
* `join`: a path below another one.
* `parent?`: the path of the directory that holds a path.
* `extension?`, `stem?`: what follows the last point of the file name, and what is in front of it.
* `relativeTo`: the way from one directory to a path.
-/

namespace ComponentWiring.File
set_option autoImplicit false

/-- A part of a path, in the order in which paths are sorted. -/
inductive Part where
  | root
  | here
  | up
  | name (s : String)
  deriving DecidableEq

namespace Part

/-- The place of a kind of part in the order. -/
def rank : Part → Nat
  | root => 0
  | here => 1
  | up => 2
  | name _ => 3

def lt : Part → Part → Bool
  | name a, name b => a < b
  | a, b => a.rank < b.rank

def text : Part → String
  | root => ""
  | here => "."
  | up => ".."
  | name s => s

end Part

namespace Path

def isAbsolute (path : String) : Bool := path.toList.head? = some '/'

def segments (path : String) : List String :=
  ((Text.splitOn '/' path.toList).map String.ofList).filter (· ≠ "")

/-- The parts of segments behind the first one. -/
def inner (segments : List String) : List Part :=
  (segments.filter (· ≠ ".")).map fun s => if s = ".." then .up else .name s

/-- The parts of a path. A `.` counts only at the start. -/
def parts (path : String) : List Part :=
  if isAbsolute path then .root :: inner (segments path)
  else
    match segments path with
    | "." :: rest => .here :: inner rest
    | rest => inner rest

/-- The order of lists of parts: part by part, a shorter one first. -/
def lePart : List Part → List Part → Bool
  | [], _ => true
  | _ :: _, [] => false
  | a :: as, b :: bs => a.lt b || (a = b && lePart as bs)

def le (a b : String) : Bool := lePart (parts a) (parts b)

/-- Whether two paths have the same parts. -/
def same (a b : String) : Bool := parts a = parts b

/-- A path below another one; an absolute path stays as it is. -/
def join (base path : String) : String :=
  if isAbsolute path then path
  else if base = "" ∨ base.toList.getLast? = some '/' then base ++ path
  else base ++ "/" ++ path

/-- The name of what a path leads to, if the path ends in a name. -/
def fileName? (path : String) : Option String :=
  match (parts path).getLast? with
  | some (.name s) => some s
  | _ => none

/-- What follows the last point of a name that does not start with this point. -/
def extensionOf? (name : String) : Option String :=
  let ending := Text.afterLast '.' name.toList
  if ending.length + 1 < name.toList.length then some (String.ofList ending) else none

/-- The extension of the name that a path ends in. -/
def extension? (path : String) : Option String := (fileName? path).bind extensionOf?

/-- What is in front of the last point of a name, if the name has an extension, or else the name. -/
def stemOf (name : String) : String :=
  match extensionOf? name with
  | some extension =>
    String.ofList (name.toList.take (name.toList.length - (extension.toList.length + 1)))
  | none => name

/-- The name that a path ends in without its extension. -/
def stem? (path : String) : Option String := (fileName? path).map stemOf

def ofParts : List Part → String
  | .root :: rest => "/" ++ Text.join "/" (rest.map (·.text))
  | parts => Text.join "/" (parts.map (·.text))

/-- The path without its last part. The root and the empty path have none to leave out. -/
def parent? (path : String) : Option String :=
  match parts path with
  | [] => none
  | [.root] => none
  | all => some (ofParts all.dropLast)

/-- The paths of the directories that hold a path, nearest first; the empty path is not one. -/
def holders (path : String) : List String :=
  let all := parts path
  (((List.range all.length).filter (0 < ·)).reverse).map fun n => ofParts (all.take n)

/-- The parts of the way from one directory to another path, both absolute. -/
def way : List Part → List Part → List Part
  | a :: from', b :: to' =>
    if a = b then way from' to' else .up :: from'.map (fun _ => .up) ++ b :: to'
  | [], to' => to'
  | from', [] => from'.map fun _ => .up

/-- A path as seen from a directory; a relative path is already seen so. -/
def relativeTo (directory path : String) : String :=
  if isAbsolute path then ofParts (way (parts directory) (parts path))
  else ofParts ((parts path).filter (· ≠ .here))

end Path

end ComponentWiring.File
