import ComponentWiring.File.Tree
import ComponentWiring.Text.Utf8

/-! # Listings of file trees

* `Tree.names`: the names in a directory.
* `Tree.listing`: the files below a directory with their texts, and the empty directories.
-/

namespace ComponentWiring.File
set_option autoImplicit false

/-- A line of a listing: a file with its text, or an empty directory. -/
inductive Listed where
  | file (path text : String)
  | emptyDirectory (path : String)
  deriving DecidableEq

/-- The path of a line, which for a directory ends in a slash. -/
def Listed.path : Listed → String
  | file path _ => path
  | emptyDirectory path => path ++ "/"

namespace Tree

def names (tree : Tree) (place : Place) : List String :=
  tree.nodes.filterMap fun (at', _) =>
    if at' ≠ [] ∧ at'.dropLast = place then at'.getLast? else none

/-- What stands below a place, at most `depth` deep, under the given path. Links are followed. -/
def listingAt (tree : Tree) : Nat → Place → String → List Listed
  | 0, _, _ => []
  | depth + 1, place, path =>
    match tree.names place with
    | [] => if path = "" then [] else [.emptyDirectory path]
    | names =>
      names.flatMap fun name =>
        let below := Path.join path name
        match tree.walk true linkLimit place [name] with
        | .ok (.there _ (.file bytes)) => [.file below (Text.Utf8.shown bytes)]
        | .ok (.there place _) => listingAt tree depth place below
        | _ => []

/-- The files below a directory with their texts, and the empty directories, in the order of their
paths. The empty path stands for the working directory. -/
def listing (tree : Tree) (path : String) : List Listed :=
  match tree.find (if path = "" then "." else path) with
  | .ok (place, .directory) =>
    (tree.listingAt (tree.nodes.length + 1) place path).mergeSort fun a b => a.path ≤ b.path
  | _ => []

end Tree

end ComponentWiring.File
