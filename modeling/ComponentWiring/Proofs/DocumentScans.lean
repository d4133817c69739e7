import ComponentWiring.Proofs.PathOrder
import ComponentWiring.Proofs.SoundTrees

/-! # Which documents a scan delivers

A scan delivers every document below its inputs once, in the order of the parts of their paths,
whatever the order of the inputs and of the tree's entries is.

* `Scan.IsDocument`: the documents of inputs, told without a listing of the tree.
* `Scan.next`, `Scan.answer`: one call for a batch, and the answer of each of many calls.
* `Scan.delivers_of_discover`: the scan as a whole.
-/

namespace ComponentWiring
set_option autoImplicit false

namespace Scan
open File

/-! ## Documents -/

/-- The documents of an input: a file itself, and below a directory each file with the extension. -/
inductive DocumentOf (tree : Tree) (extension input : String) : String → Prop where
  | file {place : Place} {bytes : List UInt8} (hfind : tree.find input = .ok (place, .file bytes)) :
    DocumentOf tree extension input input
  | below {place : Place} {names : List String} (hfind : tree.find input = .ok (place, .directory))
    (hbelow : tree.Below place names)
    (hextension : Path.extension? (Tree.pathBelow input names) = some extension) :
    DocumentOf tree extension input (Tree.pathBelow input names)

def IsDocument (tree : Tree) (scan : Settings.Scan) (path : String) : Prop :=
  ∃ input ∈ scan.inputs, DocumentOf tree scan.extension input path

section Documents
variable {tree tree' : Tree} {refusals : Refusals} {extension input path : String}
  {inputs paths : List String}

theorem documentsOf_of_file {place : Place} {bytes : List UInt8}
    (hfind : tree.find input = .ok (place, .file bytes)) :
    documentsOf tree refusals extension input = .ok [input] := by
  rw [documentsOf, Tree.isFile, hfind, if_pos rfl]

theorem documentsOf_of_directory {place : Place}
    (hfind : tree.find input = .ok (place, .directory))
    (hlisted : ∀ directory ∈ tree.directoriesUnder input, refusals directory = none) :
    documentsOf tree refusals extension input = .ok ((tree.filesUnder input).filter fun path =>
      Path.extension? path = some extension) := by
  rw [documentsOf, Tree.isFile, Tree.isDirectory, hfind, if_neg Bool.false_ne_true, if_pos rfl,
    List.findSome?_eq_none_iff.2 hlisted]

theorem documentsOf_cases (h : documentsOf tree refusals extension input = .ok paths) :
    (∃ place bytes, tree.find input = .ok (place, .file bytes) ∧ paths = [input]) ∨
      ∃ place, tree.find input = .ok (place, .directory) ∧
        (∀ directory ∈ tree.directoriesUnder input, refusals directory = none) ∧
        paths = (tree.filesUnder input).filter fun path =>
          Path.extension? path = some extension := by
  rw [documentsOf, Tree.isFile, Tree.isDirectory] at h
  cases hfind : tree.find input with
  | error fault =>
    rw [hfind] at h
    cases h
  | ok found =>
    obtain ⟨place, node⟩ := found
    rw [hfind] at h
    cases node with
    | file bytes =>
      cases h
      exact .inl ⟨place, bytes, rfl, rfl⟩
    | directory =>
      rw [if_neg Bool.false_ne_true, if_pos rfl] at h
      cases hrefused : (tree.directoriesUnder input).findSome? refusals with
      | some refusal =>
        rw [hrefused] at h
        cases h
      | none =>
        rw [hrefused] at h
        cases h
        exact .inr ⟨place, rfl, List.findSome?_eq_none_iff.1 hrefused, rfl⟩
    | link text => cases h

theorem mem_documentsOf (hsound : tree.Sound)
    (h : documentsOf tree refusals extension input = .ok paths) :
    path ∈ paths ↔ DocumentOf tree extension input path := by
  rcases documentsOf_cases h with ⟨place, bytes, hfind, rfl⟩ | ⟨place, hfind, -, rfl⟩
  · rw [List.mem_singleton]
    constructor
    · rintro rfl
      exact .file hfind
    · intro hdocument
      cases hdocument with
      | file => rfl
      | below hdirectory =>
        rw [hfind] at hdirectory
        cases hdirectory
  · rw [List.mem_filter, hsound.mem_filesUnder hfind, decide_eq_true_eq]
    constructor
    · rintro ⟨⟨names, hbelow, rfl⟩, hextension⟩
      exact .below hfind hbelow hextension
    · intro hdocument
      cases hdocument with
      | file hfile =>
        rw [hfind] at hfile
        cases hfile
      | below hdirectory hbelow hextension =>
        rw [hfind] at hdirectory
        cases hdirectory
        exact ⟨⟨_, hbelow, rfl⟩, hextension⟩

theorem exists_documentsOf (halike : tree.Alike tree') (hsound : tree.Sound)
    (hsound' : tree'.Sound) (h : documentsOf tree refusals extension input = .ok paths) :
    ∃ paths', documentsOf tree' refusals extension input = .ok paths' := by
  rcases documentsOf_cases h with ⟨place, bytes, hfind, -⟩ | ⟨place, hfind, hlisted, -⟩
  · exact ⟨_, documentsOf_of_file (halike.find_eq hfind)⟩
  · refine ⟨_, documentsOf_of_directory (halike.find_eq hfind) fun directory hdirectory => ?_⟩
    exact hlisted directory ((halike.mem_directoriesUnder hsound hsound' hfind).1 hdirectory)

theorem DocumentOf.alike (halike : tree.Alike tree') (h : DocumentOf tree extension input path) :
    DocumentOf tree' extension input path := by
  cases h with
  | file hfind => exact .file (halike.find_eq hfind)
  | below hfind hbelow hextension =>
    exact .below (halike.find_eq hfind) (halike.below hbelow) hextension

theorem documentsOfAll_cons :
    documentsOfAll tree refusals extension (input :: inputs) = .ok paths ↔
      ∃ first rest, documentsOf tree refusals extension input = .ok first ∧
        documentsOfAll tree refusals extension inputs = .ok rest ∧ paths = first ++ rest := by
  simp only [documentsOfAll, bind_eq_ok_iff, pure, Except.pure, Except.ok.injEq, exists_and_left,
    eq_comm (a := paths)]

theorem mem_documentsOfAll (hsound : tree.Sound)
    (h : documentsOfAll tree refusals extension inputs = .ok paths) :
    path ∈ paths ↔ ∃ input ∈ inputs, DocumentOf tree extension input path := by
  induction inputs generalizing paths with
  | nil =>
    cases h
    simp
  | cons input inputs ih =>
    obtain ⟨first, rest, hfirst, hrest, rfl⟩ := documentsOfAll_cons.1 h
    rw [List.mem_append, mem_documentsOf hsound hfirst, ih hrest, List.exists_mem_cons_iff]

theorem exists_documentsOfAll_iff :
    (∃ paths, documentsOfAll tree refusals extension inputs = .ok paths) ↔
      ∀ input ∈ inputs, ∃ paths, documentsOf tree refusals extension input = .ok paths := by
  induction inputs with
  | nil => simp [documentsOfAll]
  | cons input inputs ih =>
    rw [List.forall_mem_cons, ← ih]
    constructor
    · rintro ⟨paths, hpaths⟩
      obtain ⟨first, rest, hfirst, hrest, -⟩ := documentsOfAll_cons.1 hpaths
      exact ⟨⟨first, hfirst⟩, rest, hrest⟩
    · rintro ⟨⟨first, hfirst⟩, rest, hrest⟩
      exact ⟨_, documentsOfAll_cons.2 ⟨first, rest, hfirst, hrest, rfl⟩⟩

end Documents

/-! ## Calls for batches -/

/-- One call: the batch of the first pending document, which is then pending no longer, or none if
no document is pending. -/
def next (tree : Tree) : List String → Except Error (Option Batch) × List String
  | [] => (.ok none, [])
  | path :: pending => ((batch tree path).map some, pending)

/-- What a call answers after a number of others. -/
def answer (tree : Tree) : Nat → List String → Except Error (Option Batch)
  | 0, pending => (next tree pending).1
  | calls + 1, pending => answer tree calls (next tree pending).2

section Calls
variable {tree : Tree} {pending : List String}

/-- A delivery of a build is a call. -/
theorem delivery_eq_next (path : String) (pending : List String) (w : Workspace Tree) :
    ((delivery path w).1.map some, pending) = next w.disk (path :: pending) ∧
      (delivery path w).2.disk = w.disk := by
  have hbatch : batchOf path (plainly w.events w.disk path) = batch w.disk path := rfl
  rw [delivery, deliveryBy, next, hbatch]
  cases batch w.disk path with
  | error e => exact ⟨rfl, rfl⟩
  | ok b => exact ⟨rfl, rfl⟩

theorem answer_of_getElem? {k : Nat} {path : String} (h : pending[k]? = some path) :
    answer tree k pending = (batch tree path).map some := by
  induction k generalizing pending with
  | zero =>
    obtain ⟨rest, rfl⟩ := List.head?_eq_some_iff.1 (List.head?_eq_getElem? ▸ h)
    rfl
  | succ k ih =>
    cases pending with
    | nil => cases h
    | cons first pending => exact ih h

theorem answer_of_le {k : Nat} (h : pending.length ≤ k) : answer tree k pending = .ok none := by
  induction k generalizing pending with
  | zero => rw [List.length_eq_zero_iff.1 (Nat.le_zero.1 h), answer, next]
  | succ k ih =>
    cases pending with
    | nil => exact ih (Nat.zero_le k)
    | cons first pending => exact ih (Nat.le_of_succ_le_succ h)

theorem source_of_batch {path : String} {b : Batch} (h : batch tree path = .ok b) :
    b.source = some path := by
  rw [batch] at h
  cases hread : plainly [] tree path with
  | error message =>
    rw [hread] at h
    cases h
  | ok text =>
    rw [hread, batchOf] at h
    cases hdeclarations : Document.declarations path text with
    | error e =>
      rw [hdeclarations] at h
      cases h
    | ok ds =>
      rw [hdeclarations] at h
      cases h
      rfl

end Calls

/-! ## Scans -/

/-- What is delivered of paths: the documents of the inputs in strictly increasing order, one a
call, whatever becomes of those before, and nothing behind them. -/
structure Delivers (tree : Tree) (scan : Settings.Scan) (paths : List String) : Prop where
  increasing : (paths.map Path.parts).Pairwise Path.Before
  isDocument : ∀ path ∈ paths, IsDocument tree scan path
  complete : ∀ path, IsDocument tree scan path → Path.parts path ∈ paths.map Path.parts
  answer_eq : ∀ k path, paths[k]? = some path → answer tree k paths = (batch tree path).map some
  source_eq : ∀ k path b, paths[k]? = some path → answer tree k paths = .ok (some b) →
    b.source = some path
  ended : ∀ k, paths.length ≤ k → answer tree k paths = .ok none

theorem discover_ok_iff {tree : Tree} {scan : Settings.Scan} {refusals : Refusals}
    {paths : List String} :
    (discover tree scan refusals).value = .ok paths ↔
      ∃ found, documentsOfAll tree refusals scan.extension scan.inputs = .ok found ∧
        paths = arranged found := by
  rw [discover]
  cases documentsOfAll tree refusals scan.extension scan.inputs with
  | error e => simp [Logged.silent]
  | ok found => simp [eq_comm]

theorem delivers_of_found {tree : Tree} (hsound : tree.Sound) {scan : Settings.Scan}
    {refusals : Refusals} {found : List String}
    (h : documentsOfAll tree refusals scan.extension scan.inputs = .ok found) :
    Delivers tree scan (arranged found) where
  increasing := increasing_arranged found
  isDocument path hpath := (mem_documentsOfAll hsound h).1 (mem_of_mem_arranged hpath)
  complete path hpath := parts_mem_arranged ((mem_documentsOfAll hsound h).2 hpath)
  answer_eq k path hpath := answer_of_getElem? hpath
  source_eq := by
    intro k path b hpath hanswer
    rw [answer_of_getElem? hpath] at hanswer
    cases hbatch : batch tree path with
    | error e =>
      rw [hbatch] at hanswer
      cases hanswer
    | ok b' =>
      rw [hbatch] at hanswer
      cases hanswer
      exact source_of_batch hbatch
  ended k hk := answer_of_le hk

/-- A scan delivers the documents of its inputs in order and each once. The inputs in another order
and a tree with its entries in another order give the same paths, part by part. -/
theorem delivers_of_discover {tree : Tree} (hsound : tree.Sound) {scan : Settings.Scan}
    {refusals : Refusals} {paths : List String}
    (h : (discover tree scan refusals).value = .ok paths) :
    Delivers tree scan paths ∧
      ∀ tree' : Tree, tree'.Sound → tree.Alike tree' → ∀ inputs, inputs.Perm scan.inputs →
        ∃ paths', (discover tree' { scan with inputs } refusals).value = .ok paths' ∧
          paths'.map Path.parts = paths.map Path.parts := by
  obtain ⟨found, hfound, rfl⟩ := discover_ok_iff.1 h
  refine ⟨delivers_of_found hsound hfound, ?_⟩
  intro tree' hsound' halike inputs hperm
  obtain ⟨found', hfound'⟩ :
      ∃ found', documentsOfAll tree' refusals scan.extension inputs = .ok found' := by
    refine exists_documentsOfAll_iff.2 fun input hinput => ?_
    obtain ⟨paths, hpaths⟩ :=
      exists_documentsOfAll_iff.1 ⟨found, hfound⟩ input (hperm.mem_iff.1 hinput)
    exact exists_documentsOf halike hsound hsound' hpaths
  refine ⟨arranged found', discover_ok_iff.2 ⟨found', hfound', rfl⟩, ?_⟩
  apply parts_arranged_eq
  intro path
  rw [mem_documentsOfAll hsound hfound, mem_documentsOfAll hsound' hfound']
  constructor
  · rintro ⟨input, hinput, hdocument⟩
    exact ⟨input, hperm.mem_iff.1 hinput, hdocument.alike halike.symm⟩
  · rintro ⟨input, hinput, hdocument⟩
    exact ⟨input, hperm.mem_iff.2 hinput, hdocument.alike halike⟩

namespace Sample

/-- A directory with a document. -/
def shelf : Tree := ⟨[(["d"], .directory), (["d", "x.toml"], .file [])], []⟩

/-- The same with its entries in the other order. -/
def shelfAgain : Tree := ⟨[(["d", "x.toml"], .file []), (["d"], .directory)], []⟩

/-- The document, and the directory that holds it. -/
def twice : Settings.Scan := { inputs := ["d/x.toml", "d"], extension := "toml" }

theorem alike_shelf : shelf.Alike shelfAgain where
  node?_eq := by
    intro place
    by_cases hdirectory : place = ["d"]
    · subst hdirectory
      rfl
    · simp [Tree.node?, shelf, shelfAgain, List.find?_cons, Ne.symm hdirectory]
  workingDirectory := rfl

theorem sound_shelf : shelf.Sound := ⟨by decide, by decide⟩

theorem discover_shelf : (discover shelf twice).value = .ok ["d/x.toml"] := by
  have hd : Tree.Names "d" := ⟨by decide, by decide, by decide⟩
  have hx : Tree.Names "x.toml" := ⟨by decide, by decide, by decide⟩
  have hdirectory : shelf.find "d" = .ok (["d"], .directory) := by
    have hsegments : Tree.closedSegments "d" = ["d"] := by decide
    rw [Tree.find_eq_ok_iff, hsegments]
    exact ⟨⟨by decide, by decide, by decide⟩,
      .name rfl hd rfl (fun _ => Node.noConfusion) (.there _ rfl)⟩
  have hfile : shelf.find "d/x.toml" = .ok (["d", "x.toml"], .file []) := by
    have hsegments : Tree.closedSegments "d/x.toml" = ["d", "x.toml"] := by decide
    rw [Tree.find_eq_ok_iff, hsegments]
    exact ⟨⟨by decide, by decide, by decide⟩,
      .name rfl hd rfl (fun _ => Node.noConfusion)
        (.name rfl hx rfl (fun _ => Node.noConfusion) (.there _ rfl))⟩
  have hunder : (shelf.filesUnder "d").filter (fun path => Path.extension? path = some "toml") =
      ["d/x.toml"] := by
    rw [Tree.filesUnder, hdirectory]
    decide
  have hfound : documentsOfAll shelf (fun _ => none) "toml" ["d/x.toml", "d"] =
      .ok ["d/x.toml", "d/x.toml"] := by
    rw [documentsOfAll, documentsOf_of_file hfile, documentsOfAll,
      documentsOf_of_directory hdirectory fun _ _ => rfl, hunder]
    rfl
  have hsorted : ["d/x.toml", "d/x.toml"].Pairwise fun a b => Path.le a b = true := by decide
  refine discover_ok_iff.2 ⟨_, hfound, ?_⟩
  rw [arranged, List.mergeSort_of_pairwise hsorted]
  decide

theorem delivers_of_discover_of_two :
    shelf.Sound ∧ (discover shelf twice).value = .ok ["d/x.toml"] ∧
    Delivers shelf twice ["d/x.toml"] ∧
    shelfAgain.Sound ∧ shelf.Alike shelfAgain ∧
    ∃ paths, (discover shelfAgain { twice with inputs := ["d", "d/x.toml"] }).value = .ok paths ∧
      paths.map Path.parts = [[.name "d", .name "x.toml"]] := by
  have hagain : shelfAgain.Sound := ⟨by decide, by decide⟩
  have hswap : ["d", "d/x.toml"].Perm twice.inputs := List.Perm.swap _ _ _
  obtain ⟨hdelivers, htwo⟩ := delivers_of_discover sound_shelf discover_shelf
  obtain ⟨paths, hpaths, hparts⟩ := htwo shelfAgain hagain alike_shelf _ hswap
  exact ⟨sound_shelf, discover_shelf, hdelivers, hagain, alike_shelf, paths, hpaths,
    hparts.trans (by decide)⟩

end Sample

end Scan

end ComponentWiring
