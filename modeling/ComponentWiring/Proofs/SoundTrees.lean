import ComponentWiring.Proofs.TreeGrowth

/-! # Sound trees

File systems hold everything in directories, and list what stands at each place once. Making a
directory and writing a file keep that.

* `Tree.Sound`: trees as file systems have them.
* `Tree.Sound.makeDirectory`, `Tree.Sound.write`: what keeps them so.
* `Tree.Below`: what leads from a directory to a file, through directories alone.
* `Tree.Sound.mem_filesUnder`, `Tree.Sound.mem_directoriesUnder`: what is listed below a directory.
* `Tree.Alike`: trees in which the same stands everywhere, in whatever order they list it.
-/

namespace ComponentWiring
set_option autoImplicit false

namespace File.Tree
variable {tree tree' : Tree} {place : Place} {names : List String}

/-- A tree that lists what stands at its places, each of them in a directory. -/
structure Sound (tree : Tree) : Prop where
  listed : ∀ entry ∈ tree.nodes, tree.node? entry.1 = some entry.2
  held : ∀ entry ∈ tree.nodes, tree.node? entry.1.dropLast = some .directory

theorem sound_empty (workingDirectory : Place) : Sound ⟨[], workingDirectory⟩ where
  listed := by simp
  held := by simp

theorem mem_nodes_of_node? {node : Node} (h : tree.node? place = some node) (hroot : place ≠ []) :
    (place, node) ∈ tree.nodes := by
  rw [node?, if_neg hroot, Option.map_eq_some_iff] at h
  obtain ⟨entry, hentry, rfl⟩ := h
  have hplace : entry.1 = place := by simpa using List.find?_some hentry
  rw [← hplace]
  exact List.mem_of_find?_eq_some hentry

theorem Sound.held_of_node? (hsound : tree.Sound) {node : Node} (h : tree.node? place = some node) :
    tree.node? place.dropLast = some .directory := by
  by_cases hroot : place = []
  · rw [hroot]
    exact node?_root tree
  · exact hsound.held _ (mem_nodes_of_node? h hroot)

theorem Sound.directory (hsound : tree.Sound) {name : String} {node : Node}
    (h : tree.node? (place ++ name :: names) = some node) :
    tree.node? place = some .directory := by
  induction names generalizing place name with
  | nil =>
    have hheld := hsound.held_of_node? h
    rwa [List.dropLast_concat] at hheld
  | cons next names ih =>
    rw [List.append_cons] at h
    have hheld := hsound.held_of_node? (ih h)
    rwa [List.dropLast_concat] at hheld

theorem Way.held {followLast : Bool} {links : Nat} {segments : List String} {target : Target}
    (h : Way tree followLast links place segments target) {free : Place}
    (hfree : target = .free free) : tree.node? free.dropLast = some .directory := by
  induction h with
  | there => cases hfree
  | here _ _ ih => exact ih hfree
  | up _ _ ih => exact ih hfree
  | free links hdirectory _ _ =>
    cases hfree
    rwa [List.dropLast_concat]
  | lastLink => cases hfree
  | link _ _ _ _ _ ih => exact ih hfree
  | name _ _ _ _ _ ih => exact ih hfree

theorem Sound.put (hsound : tree.Sound) (hheld : tree.node? place.dropLast = some .directory)
    (hwritable : tree.Writable place) (node : Node) : (tree.put place node).Sound := by
  have hput := node?_put tree hwritable.ne_root node
  have hdirectory : ∀ q, tree.node? q = some .directory → q ≠ place := by
    rintro q hq rfl
    rcases hwritable with hnone | ⟨bytes, hfile⟩
    · rw [hnone] at hq
      cases hq
    · rw [hfile] at hq
      cases hq
  have hentries : ∀ entry ∈ (tree.put place node).nodes,
      entry ∈ tree.nodes ∧ entry.1 ≠ place ∨ entry = (place, node) := by
    simp [Tree.put]
  constructor
  case listed =>
    intro entry hentry
    rw [hput]
    rcases hentries entry hentry with ⟨hmem, hother⟩ | rfl
    · rw [if_neg hother, hsound.listed entry hmem]
    · exact if_pos rfl
  case held =>
    intro entry hentry
    rw [hput]
    rcases hentries entry hentry with ⟨hmem, -⟩ | rfl
    · have hold := hsound.held entry hmem
      rw [if_neg (hdirectory _ hold), hold]
    · rw [if_neg (hdirectory _ hheld), hheld]

theorem Sound.makeDirectory (hsound : tree.Sound) {path : String}
    (h : tree.makeDirectory path = .ok tree') : tree'.Sound := by
  unfold Tree.makeDirectory at h
  split at h
  · cases h
  · cases h
  · next place hlead =>
    cases h
    obtain ⟨-, hway⟩ := lead_eq_ok_iff.1 hlead
    exact hsound.put (hway.held rfl) (.inl hway.node?_eq) _

theorem Sound.write (hsound : tree.Sound) (hproper : tree.Proper) {path : String}
    {bytes : List UInt8} (h : tree.write path bytes = .ok tree') : tree'.Sound := by
  obtain ⟨-, target, hlead, hwritable, rfl⟩ := exists_target_of_write hproper h
  obtain ⟨-, hway⟩ := lead_eq_ok_iff.1 hlead
  refine hsound.put ?_ hwritable _
  cases target with
  | there place node => exact hsound.held_of_node? hway.node?_eq
  | free place => exact hway.held rfl

/-! ## Files below a directory -/

/-- Names that lead from a place through directories to a file. -/
inductive Below (tree : Tree) : Place → List String → Prop where
  | file {place : Place} {name : String} {bytes : List UInt8}
    (h : tree.node? (place ++ [name]) = some (.file bytes)) : Below tree place [name]
  | directory {place : Place} {name : String} {names : List String}
    (hdirectory : tree.node? (place ++ [name]) = some .directory)
    (h : Below tree (place ++ [name]) names) : Below tree place (name :: names)

theorem Sound.below_iff (hsound : tree.Sound) :
    tree.Below place names ↔
      names ≠ [] ∧ ∃ bytes, tree.node? (place ++ names) = some (.file bytes) := by
  constructor
  · intro h
    induction h with
    | file h => exact ⟨by simp, _, h⟩
    | directory _ _ ih =>
      refine ⟨by simp, ?_⟩
      rw [List.append_cons]
      exact ih.2
  · rintro ⟨hnames, bytes, hfile⟩
    induction names generalizing place with
    | nil => exact absurd rfl hnames
    | cons name names ih =>
      cases names with
      | nil => exact .file hfile
      | cons next names =>
        rw [List.append_cons] at hfile
        exact .directory (hsound.directory hfile) (ih (by simp) hfile)

/-- The path of what names lead to from a path. -/
def pathBelow (path : String) (names : List String) : String :=
  Path.join path (Text.join "/" names)

theorem Sound.mem_filesUnder (hsound : tree.Sound) {path : String}
    (hfind : tree.find path = .ok (place, .directory)) {file : String} :
    file ∈ tree.filesUnder path ↔
      ∃ names, tree.Below place names ∧ file = pathBelow path names := by
  have hdirectory := node?_of_find hfind
  rw [filesUnder, hfind]
  simp only [List.mem_filterMap]
  constructor
  · rintro ⟨⟨at', node⟩, hentry, hfile⟩
    cases node with
    | directory => cases hfile
    | link text => cases hfile
    | file bytes =>
      have hnode := hsound.listed _ hentry
      simp only [Option.ite_none_right_eq_some, Option.some.injEq,
        List.isPrefixOf_iff_prefix] at hfile
      obtain ⟨⟨names, rfl⟩, rfl⟩ := hfile
      rw [List.drop_left]
      refine ⟨names, hsound.below_iff.2 ⟨?_, bytes, hnode⟩, rfl⟩
      rintro rfl
      rw [List.append_nil, hdirectory] at hnode
      cases hnode
  · rintro ⟨names, hbelow, rfl⟩
    obtain ⟨hnames, bytes, hfile⟩ := hsound.below_iff.1 hbelow
    refine ⟨(place ++ names, .file bytes), mem_nodes_of_node? hfile (by simp [hnames]), ?_⟩
    simp [pathBelow]

theorem Sound.mem_directoriesUnder (hsound : tree.Sound) {path : String}
    (hfind : tree.find path = .ok (place, .directory)) {directory : String} :
    directory ∈ tree.directoriesUnder path ↔ directory = path ∨
      ∃ names ≠ [], tree.node? (place ++ names) = some .directory ∧
        directory = pathBelow path names := by
  rw [directoriesUnder, hfind]
  simp only [List.mem_cons, List.mem_filterMap]
  refine or_congr_right ⟨?_, ?_⟩
  · rintro ⟨⟨at', node⟩, hentry, hdirectory⟩
    cases node with
    | file bytes => cases hdirectory
    | link text => cases hdirectory
    | directory =>
      have hnode := hsound.listed _ hentry
      simp only [Option.ite_none_right_eq_some, Option.some.injEq,
        List.isPrefixOf_iff_prefix] at hdirectory
      obtain ⟨⟨⟨names, rfl⟩, hother⟩, rfl⟩ := hdirectory
      rw [List.drop_left]
      refine ⟨names, ?_, hnode, rfl⟩
      rintro rfl
      exact hother (List.append_nil place)
  · rintro ⟨names, hnames, hnode, rfl⟩
    refine ⟨(place ++ names, .directory), mem_nodes_of_node? hnode (by simp [hnames]), ?_⟩
    simp [pathBelow, hnames]

/-! ## Trees that differ in the order of their entries -/

/-- Trees in which the same stands everywhere. -/
structure Alike (tree tree' : Tree) : Prop where
  node?_eq : ∀ place, tree'.node? place = tree.node? place
  workingDirectory : tree'.workingDirectory = tree.workingDirectory

theorem Alike.symm (h : tree.Alike tree') : tree'.Alike tree :=
  ⟨fun place => (h.node?_eq place).symm, h.workingDirectory.symm⟩

theorem Alike.grows (h : tree.Alike tree') : tree.Grows tree' where
  workingDirectory := h.workingDirectory
  link_iff place text := by rw [h.node?_eq]
  directory place hplace := by rw [h.node?_eq, hplace]
  file place bytes hplace := ⟨bytes, by rw [h.node?_eq, hplace]⟩

theorem Alike.find_eq (h : tree.Alike tree') {path : String} {node : Node}
    (hfind : tree.find path = .ok (place, node)) : tree'.find path = .ok (place, node) :=
  h.grows.find_eq hfind ((h.node?_eq place).trans (node?_of_find hfind))

theorem Alike.mem_directoriesUnder (h : tree.Alike tree') (hsound : tree.Sound)
    (hsound' : tree'.Sound) {path : String} (hfind : tree.find path = .ok (place, .directory))
    {directory : String} :
    directory ∈ tree'.directoriesUnder path ↔ directory ∈ tree.directoriesUnder path := by
  rw [hsound.mem_directoriesUnder hfind, hsound'.mem_directoriesUnder (h.find_eq hfind)]
  simp only [h.node?_eq]

theorem Alike.below (h : tree.Alike tree') (hbelow : tree.Below place names) :
    tree'.Below place names := by
  induction hbelow with
  | file hfile => exact .file ((h.node?_eq _).trans hfile)
  | directory hdirectory _ ih => exact .directory ((h.node?_eq _).trans hdirectory) ih

end File.Tree

end ComponentWiring
