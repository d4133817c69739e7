import ComponentWiring.File.Tree

/-! # Disks

A disk is whatever directories and files can be made on. Making something may fail.

* `Disk`: the operations.
* `Disk.makeDirectories`: a directory with all directories on the way to it.
* `Tree.disk`: a file tree as a disk.
-/

namespace ComponentWiring.File
set_option autoImplicit false

/-- The operations on a disk, whose state is of any type. -/
structure Disk (σ : Type) where
  exists? : String → σ → Bool
  isDirectory : String → σ → Bool
  makeDirectory : String → σ → Except Fault Unit × σ
  write : String → String → σ → Except Fault Unit × σ

namespace Disk

/-- Makes the first directory of a list that can be made, each held by the one after it, and tells
which ones are left to be made: those in front of it, the outermost first. -/
def makeOutermost {σ : Type} (disk : Disk σ) :
    List String → List String → σ → Except Fault (List String) × σ
  | [], left, s => (.ok left, s)
  | path :: holders, left, s =>
    match disk.makeDirectory path s with
    | (.ok _, s) => (.ok left, s)
    | (.error .missing, s) => makeOutermost disk holders (path :: left) s
    | (.error .alreadyThere, s) =>
      if disk.isDirectory path s then (.ok left, s) else (.error .alreadyThere, s)
    | (.error fault, s) => (.error fault, s)

/-- Makes directories in order; those that are there already are left alone. -/
def makeEach {σ : Type} (disk : Disk σ) : List String → σ → Except Fault Unit × σ
  | [], s => (.ok (), s)
  | path :: rest, s =>
    match disk.makeDirectory path s with
    | (.ok _, s) => makeEach disk rest s
    | (.error .alreadyThere, s) =>
      if disk.isDirectory path s then makeEach disk rest s else (.error .alreadyThere, s)
    | (.error fault, s) => (.error fault, s)

/-- Makes a directory and all directories on the way to it. -/
def makeDirectories {σ : Type} (disk : Disk σ) (path : String) (s : σ) : Except Fault Unit × σ :=
  if path = "" then (.ok (), s)
  else
    match disk.makeOutermost (path :: Path.holders path) [] s with
    | (.ok left, s) => disk.makeEach left s
    | (.error fault, s) => (.error fault, s)

end Disk

/-- The tree after a change that may have failed, in which case it is as before. -/
def Tree.changed (tree : Tree) : Except Fault Tree → Except Fault Unit × Tree
  | .ok tree => (.ok (), tree)
  | .error fault => (.error fault, tree)

def Tree.disk : Disk Tree where
  exists? := fun path tree => tree.exists? path
  isDirectory := fun path tree => tree.isDirectory path
  makeDirectory := fun path tree => tree.changed (tree.makeDirectory path)
  write := fun path text tree => tree.changed (tree.write path text.toUTF8.data.toList)

end ComponentWiring.File
