import ComponentWiring.File.Disk
import Mathlib.Data.List.Infix

/-! # Trees that grow

Directories are made at free places, files are written at free places or over other files, and
links are left alone. So what a path leads to stays where it is.

* `Tree.aim`, `Tree.aimOf`: the place of a path, whether or not something stands there.
* `Tree.Way`: the ways on which a path leads somewhere.
* `Tree.Proper`: a tree whose working directory is not reached through a link.
* `Tree.Grows`: a tree after changes that leave all links and directories.
* `Tree.exists_put_of_makeDirectory`, `Tree.wrote_of_write`: what a change is.
* `Tree.readText_of_find`: a text that is written is what is read.
* `Tree.NamesHere`: paths that lead to a name in the working directory.
-/

namespace ComponentWiring.File
set_option autoImplicit false

/-- The place to which a target belongs. -/
def Target.place : Target → Place
  | there place _ => place
  | free place => place

/-- What stands at a target. -/
def Target.node? : Target → Option Node
  | there _ node => some node
  | free _ => none

namespace Tree

/-! ## What stands at a place -/

theorem node?_root (tree : Tree) : tree.node? [] = some .directory := if_pos rfl

theorem node?_put (tree : Tree) {place : Place} (h : place ≠ []) (node : Node) (q : Place) :
    (tree.put place node).node? q = if q = place then some node else tree.node? q := by
  have hlist : (tree.nodes.filter (·.1 ≠ place) ++ [(place, node)]).find? (·.1 = q) =
      if q = place then some (place, node) else tree.nodes.find? (·.1 = q) := by
    rw [List.find?_append, List.find?_filter]
    by_cases hq : q = place
    · have hnone : tree.nodes.find? (fun entry =>
          decide (decide (entry.1 ≠ place) = true ∧ decide (entry.1 = q) = true)) = none := by
        simp [List.find?_eq_none, hq]
      rw [hnone]
      simp [hq]
    · have hsame : (fun (entry : Place × Node) =>
          decide (decide (entry.1 ≠ place) = true ∧ decide (entry.1 = q) = true)) =
          fun entry => decide (entry.1 = q) := by
        funext entry
        by_cases he : entry.1 = q
        · simp [he, hq]
        · simp [he]
      rw [hsame]
      simp [hq, Ne.symm hq]
  unfold node? put
  dsimp only
  rw [hlist]
  by_cases hroot : q = []
  · rw [if_pos hroot, if_pos hroot, if_neg (hroot ▸ Ne.symm h)]
  · rw [if_neg hroot, if_neg hroot]
    split <;> rfl

/-! ## The place of a path -/

/-- The place to which segments lead, whether or not something stands there; there is none if they
lead through too many links. -/
def aim (tree : Tree) : Nat → Place → List String → Option Place
  | _, place, [] => some place
  | links, place, segment :: rest =>
    if segment = "." then aim tree links place rest
    else if segment = ".." then aim tree links place.dropLast rest
    else
      match tree.node? (place ++ [segment]) with
      | some (.link target) =>
        match links with
        | 0 => none
        | links + 1 =>
          aim tree links (if Path.isAbsolute target then [] else place)
            (Path.segments target ++ rest)
      | _ => aim tree links (place ++ [segment]) rest
termination_by links _ segments => (links, segments.length)

/-- The place from which a path leads. -/
def base (tree : Tree) (path : String) : Place :=
  if Path.isAbsolute path then [] else tree.workingDirectory

/-- The place of a path. -/
def aimOf (tree : Tree) (path : String) : Option Place :=
  tree.aim linkLimit (tree.base path) (Path.segments path)

/-! ## Ways -/

/-- A segment that names something and is not too long. -/
structure Names (segment : String) : Prop where
  ne_here : segment ≠ "."
  ne_up : segment ≠ ".."
  le : segment.utf8ByteSize ≤ nameLimit

/-- The ways on which segments lead somewhere. -/
inductive Way (tree : Tree) (followLast : Bool) : Nat → Place → List String → Target → Prop where
  | there (links : Nat) {place : Place} {node : Node} (h : tree.node? place = some node) :
    Way tree followLast links place [] (.there place node)
  | here {links : Nat} {place : Place} {rest : List String} {target : Target}
    (hdirectory : tree.node? place = some .directory)
    (h : Way tree followLast links place rest target) :
    Way tree followLast links place ("." :: rest) target
  | up {links : Nat} {place : Place} {rest : List String} {target : Target}
    (hdirectory : tree.node? place = some .directory)
    (h : Way tree followLast links place.dropLast rest target) :
    Way tree followLast links place (".." :: rest) target
  | free (links : Nat) {place : Place} {segment : String}
    (hdirectory : tree.node? place = some .directory) (hname : Names segment)
    (hnone : tree.node? (place ++ [segment]) = none) :
    Way tree followLast links place [segment] (.free (place ++ [segment]))
  | lastLink (links : Nat) {place : Place} {segment target : String}
    (hdirectory : tree.node? place = some .directory) (hname : Names segment)
    (hlink : tree.node? (place ++ [segment]) = some (.link target)) (hlast : followLast = false) :
    Way tree followLast links place [segment] (.there (place ++ [segment]) (.link target))
  | link {links : Nat} {place : Place} {segment text : String} {rest : List String}
    {target : Target} (hdirectory : tree.node? place = some .directory) (hname : Names segment)
    (hlink : tree.node? (place ++ [segment]) = some (.link text))
    (hfollow : ¬ (rest = [] ∧ followLast = false))
    (h : Way tree followLast links (if Path.isAbsolute text then [] else place)
      (Path.segments text ++ rest) target) :
    Way tree followLast (links + 1) place (segment :: rest) target
  | name {links : Nat} {place : Place} {segment : String} {rest : List String} {node : Node}
    {target : Target} (hdirectory : tree.node? place = some .directory) (hname : Names segment)
    (hnode : tree.node? (place ++ [segment]) = some node) (hlink : ∀ text, node ≠ .link text)
    (h : Way tree followLast links (place ++ [segment]) rest target) :
    Way tree followLast links place (segment :: rest) target

section Way
variable {tree : Tree} {followLast : Bool} {links : Nat} {place : Place} {segments : List String}
  {target : Target}

theorem way_of_walk (h : tree.walk followLast links place segments = .ok target) :
    Way tree followLast links place segments target := by
  fun_induction walk tree followLast links place segments with
  | case1 links place node hnode =>
    cases h
    exact .there links hnode
  | case2 => cases h
  | case3 => cases h
  | case4 links place rest hdirectory ih => exact .here (not_not.1 hdirectory) (ih h)
  | case5 links place rest hdirectory _ ih => exact .up (not_not.1 hdirectory) (ih h)
  | case6 => cases h
  | case7 links place segment hdirectory hhere hup hlong hnone =>
    cases h
    exact .free links (not_not.1 hdirectory) ⟨hhere, hup, Nat.not_lt.1 hlong⟩ hnone
  | case8 => cases h
  | case9 links place segment rest hdirectory hhere hup hlong text hlink hlast =>
    obtain ⟨rfl, hlast⟩ := hlast
    cases h
    exact .lastLink links (not_not.1 hdirectory) ⟨hhere, hup, Nat.not_lt.1 hlong⟩ hlink hlast
  | case10 => cases h
  | case11 place segment rest hdirectory hhere hup hlong text hlink hfollow links ih =>
    exact .link (not_not.1 hdirectory) ⟨hhere, hup, Nat.not_lt.1 hlong⟩ hlink hfollow (ih h)
  | case12 links place segment rest hdirectory hhere hup hlong node hlink hnode ih =>
    exact .name (not_not.1 hdirectory) ⟨hhere, hup, Nat.not_lt.1 hlong⟩ hnode hlink (ih h)

theorem Way.walk_eq (h : Way tree followLast links place segments target) :
    tree.walk followLast links place segments = .ok target := by
  induction h with
  | there links hnode => simp [walk, hnode]
  | here hdirectory _ ih => simp [walk, hdirectory, ih]
  | up hdirectory _ ih => simp [walk, hdirectory, ih]
  | free links hdirectory hname hnone =>
    simp [walk, hdirectory, hname.ne_here, hname.ne_up, hname.le, hnone]
  | lastLink links hdirectory hname hlink hlast =>
    simp [walk, hdirectory, hname.ne_here, hname.ne_up, hname.le, hlink, hlast]
  | link hdirectory hname hlink hfollow _ ih =>
    rw [walk, if_neg (not_not.2 hdirectory), if_neg hname.ne_here, if_neg hname.ne_up,
      if_neg (Nat.not_lt.2 hname.le), hlink]
    dsimp only
    rw [if_neg hfollow, ih]
  | @name links place segment rest node target hdirectory hname hnode hlink _ ih =>
    rw [walk, if_neg (not_not.2 hdirectory), if_neg hname.ne_here, if_neg hname.ne_up,
      if_neg (Nat.not_lt.2 hname.le), hnode]
    cases node with
    | file bytes => exact ih
    | directory => exact ih
    | link text => exact absurd rfl (hlink text)

theorem Way.node?_eq (h : Way tree followLast links place segments target) :
    tree.node? target.place = target.node? := by
  induction h with
  | there links hnode => exact hnode
  | free links _ _ hnone => exact hnone
  | lastLink links _ _ hlink => exact hlink
  | here _ _ ih => exact ih
  | up _ _ ih => exact ih
  | link _ _ _ _ _ ih => exact ih
  | name _ _ _ _ _ ih => exact ih

theorem aim_name {segment : String} {rest : List String} (hhere : segment ≠ ".")
    (hup : segment ≠ "..") (hlink : ∀ text, tree.node? (place ++ [segment]) ≠ some (.link text)) :
    tree.aim links place (segment :: rest) = tree.aim links (place ++ [segment]) rest := by
  rw [aim, if_neg hhere, if_neg hup]
  split
  · next text htext => exact absurd htext (hlink text)
  · rfl

/-- A way leads to the place of the path, unless it ends with a link that is not followed. -/
theorem Way.aim_eq (h : Way tree followLast links place segments target)
    (hlast : ∀ q text, target = .there q (.link text) → followLast = true) :
    tree.aim links place segments = some target.place := by
  induction h with
  | there links hnode => rw [aim]; rfl
  | here _ _ ih => rw [aim, if_pos rfl, ih hlast]
  | up _ _ ih => rw [aim, if_neg (by decide), if_pos rfl, ih hlast]
  | free links _ hname hnone =>
    rw [aim_name hname.ne_here hname.ne_up (by simp [hnone]), aim]
    rfl
  | lastLink links _ _ _ hfollow => simp [hfollow] at hlast
  | link _ hname hlink _ _ ih =>
    rw [aim, if_neg hname.ne_here, if_neg hname.ne_up, hlink]
    exact ih hlast
  | name _ hname hnode hlink _ ih =>
    rw [aim_name hname.ne_here hname.ne_up (by simpa [hnode] using hlink), ih hlast]

end Way

/-! ## Links on the way -/

/-- A place that is not reached through a link. -/
def Unlinked (tree : Tree) (place : Place) : Prop :=
  ∀ holder, holder <+: place → ∀ text, tree.node? holder ≠ some (.link text)

/-- A tree whose working directory is not reached through a link. Systems name working directories
like that, by places alone. -/
def Proper (tree : Tree) : Prop := tree.Unlinked tree.workingDirectory

theorem unlinked_root (tree : Tree) : tree.Unlinked [] := by
  intro holder hholder text
  rw [List.prefix_nil.1 hholder, node?_root]
  simp

theorem Unlinked.concat {tree : Tree} {place : Place} {segment : String} (h : tree.Unlinked place)
    (hlink : ∀ text, tree.node? (place ++ [segment]) ≠ some (.link text)) :
    tree.Unlinked (place ++ [segment]) := by
  intro holder hholder
  rcases List.prefix_concat_iff.1 hholder with rfl | hholder
  · exact hlink
  · exact h holder hholder

theorem Proper.unlinked_base {tree : Tree} (h : tree.Proper) (path : String) :
    tree.Unlinked (tree.base path) := by
  unfold base
  split
  · exact tree.unlinked_root
  · exact h

theorem linkless_of_nodes {tree : Tree} (h : ∀ entry ∈ tree.nodes, ∀ text, entry.2 ≠ .link text)
    (place : Place) (text : String) : tree.node? place ≠ some (.link text) := by
  rw [node?]
  split
  · simp
  · intro hlink
    obtain ⟨entry, hentry, hnode⟩ := Option.map_eq_some_iff.1 hlink
    exact h entry (List.mem_of_find?_eq_some hentry) text hnode

theorem proper_of_linkless {tree : Tree} (h : ∀ place text, tree.node? place ≠ some (.link text)) :
    tree.Proper :=
  fun holder _ => h holder

/-- Where the last link is followed too, a way does not end at a link. -/
theorem Way.ne_link {tree : Tree} {links : Nat} {place : Place} {segments : List String}
    {target : Target} (h : Way tree true links place segments target) (hplace : tree.Unlinked place)
    (q : Place) (text : String) : target ≠ .there q (.link text) := by
  induction h with
  | @there links place node hnode =>
    intro heq
    obtain ⟨rfl, rfl⟩ := Target.there.inj heq
    exact hplace place List.prefix_rfl text hnode
  | here _ _ ih => exact ih hplace
  | up _ _ ih =>
    exact ih fun holder hholder => hplace holder (hholder.trans (List.dropLast_prefix _))
  | free => exact Target.noConfusion
  | lastLink _ _ _ _ hlast => cases hlast
  | @link links place segment text rest target _ _ _ _ _ ih =>
    apply ih
    split
    · exact tree.unlinked_root
    · exact hplace
  | name _ _ hnode hlink _ ih =>
    exact ih (hplace.concat (by simpa [hnode] using hlink))

/-! ## Growth -/

/-- A tree after changes that leave all links and directories, and a file where a file stood. -/
structure Grows (tree tree' : Tree) : Prop where
  workingDirectory : tree'.workingDirectory = tree.workingDirectory
  link_iff : ∀ place text,
    tree'.node? place = some (.link text) ↔ tree.node? place = some (.link text)
  directory : ∀ place, tree.node? place = some .directory → tree'.node? place = some .directory
  file : ∀ place bytes, tree.node? place = some (.file bytes) →
    ∃ bytes', tree'.node? place = some (.file bytes')

namespace Grows
variable {tree tree' tree'' : Tree}

theorem refl (tree : Tree) : tree.Grows tree :=
  ⟨rfl, fun _ _ => Iff.rfl, fun _ => id, fun _ b h => ⟨b, h⟩⟩

theorem trans (h : tree.Grows tree') (h' : tree'.Grows tree'') : tree.Grows tree'' where
  workingDirectory := h'.workingDirectory.trans h.workingDirectory
  link_iff place text := (h'.link_iff place text).trans (h.link_iff place text)
  directory place hplace := h'.directory place (h.directory place hplace)
  file place bytes hplace := by
    obtain ⟨bytes', hbytes'⟩ := h.file place bytes hplace
    exact h'.file place bytes' hbytes'

theorem node?_eq_none (h : tree.Grows tree') {place : Place} (hnone : tree'.node? place = none) :
    tree.node? place = none := by
  cases hnode : tree.node? place with
  | none => rfl
  | some node =>
    cases node with
    | file bytes =>
      obtain ⟨bytes', hbytes'⟩ := h.file place bytes hnode
      simp [hbytes'] at hnone
    | directory => simp [h.directory place hnode] at hnone
    | link text => simp [(h.link_iff place text).2 hnode] at hnone

theorem proper (h : tree.Grows tree') (hproper : tree.Proper) : tree'.Proper := by
  intro holder hholder text htext
  rw [h.workingDirectory] at hholder
  exact hproper holder hholder text ((h.link_iff holder text).1 htext)

theorem aim_eq (h : tree.Grows tree') (links : Nat) (place : Place) (segments : List String) :
    tree'.aim links place segments = tree.aim links place segments := by
  fun_induction aim tree links place segments with
  | case1 => rw [aim]
  | case2 links place rest ih => rw [aim, if_pos rfl, ih]
  | case3 links place rest _ ih => rw [aim, if_neg (by decide), if_pos rfl, ih]
  | case4 place segment rest hhere hup text hlink =>
    rw [aim, if_neg hhere, if_neg hup, (h.link_iff _ _).2 hlink]
  | case5 place segment rest hhere hup text hlink links ih =>
    rw [aim, if_neg hhere, if_neg hup, (h.link_iff _ _).2 hlink]
    exact ih
  | case6 links place segment rest hhere hup hlink ih =>
    rw [aim_name hhere hup fun text htext => hlink text ((h.link_iff _ _).1 htext), ih]

theorem aimOf_eq (h : tree.Grows tree') (path : String) : tree'.aimOf path = tree.aimOf path := by
  rw [aimOf, aimOf, base, base, h.workingDirectory, h.aim_eq]

/-- After growth a way leads to the same place, if something stands there. -/
theorem way (h : tree.Grows tree') {links : Nat} {place : Place} {segments : List String}
    {target : Target} (hway : Way tree true links place segments target) {node : Node}
    (hnode : tree'.node? target.place = some node) :
    Way tree' true links place segments (.there target.place node) := by
  induction hway with
  | there links _ => exact .there links hnode
  | here hdirectory _ ih => exact .here (h.directory _ hdirectory) (ih hnode)
  | up hdirectory _ ih => exact .up (h.directory _ hdirectory) (ih hnode)
  | free links hdirectory hname hnone =>
    refine .name (h.directory _ hdirectory) hname hnode ?_ (.there links hnode)
    rintro text rfl
    exact absurd (hnone.symm.trans ((h.link_iff _ text).1 hnode)) (by simp)
  | lastLink _ _ _ _ hlast => cases hlast
  | link hdirectory hname hlink hfollow _ ih =>
    exact .link (h.directory _ hdirectory) hname ((h.link_iff _ _).2 hlink) hfollow (ih hnode)
  | @name links place segment rest node _ hdirectory hname hfound hlink _ ih =>
    cases node with
    | file bytes =>
      obtain ⟨bytes', hbytes'⟩ := h.file _ bytes hfound
      exact .name (h.directory _ hdirectory) hname hbytes' (fun _ => Node.noConfusion) (ih hnode)
    | directory =>
      exact .name (h.directory _ hdirectory) hname (h.directory _ hfound)
        (fun _ => Node.noConfusion) (ih hnode)
    | link text => exact absurd rfl (hlink text)

end Grows

/-! ## What is found -/

section Find
variable {tree tree' : Tree} {path : String} {place : Place} {node : Node}

/-- The paths that are not refused before anything is looked at. -/
structure Usable (path : String) : Prop where
  noNul : '\x00' ∉ path.toList
  ne : path ≠ ""
  le : path.utf8ByteSize ≤ pathLimit

theorem lead_eq_ok_iff {followLast : Bool} {segments : List String} {target : Target} :
    tree.lead followLast path segments = .ok target ↔
      Usable path ∧ Way tree followLast linkLimit (tree.base path) segments target := by
  unfold lead
  constructor
  · intro h
    split at h
    · cases h
    · next hnul =>
      split at h
      · cases h
      · next hne =>
        split at h
        · cases h
        · next hle =>
          exact ⟨⟨by simpa using hnul, hne, Nat.not_lt.1 hle⟩, way_of_walk h⟩
  · rintro ⟨husable, hway⟩
    rw [if_neg (by simp [husable.noNul]), if_neg husable.ne, if_neg (Nat.not_lt.2 husable.le)]
    exact hway.walk_eq

theorem find_eq_ok_iff :
    tree.find path = .ok (place, node) ↔
      Usable path ∧
        Way tree true linkLimit (tree.base path) (closedSegments path) (.there place node) := by
  rw [← lead_eq_ok_iff, find]
  cases tree.lead true path (closedSegments path) with
  | error fault => simp
  | ok target =>
    cases target with
    | there place' node' => simp
    | free place' => simp

theorem exists?_iff :
    tree.exists? path = true ↔ ∃ place node, tree.find path = .ok (place, node) := by
  unfold exists?
  cases tree.find path with
  | error fault => simp [Except.toBool]
  | ok found =>
    obtain ⟨place, node⟩ := found
    simp [Except.toBool]

theorem node?_of_find (h : tree.find path = .ok (place, node)) : tree.node? place = some node :=
  (find_eq_ok_iff.1 h).2.node?_eq

theorem aim_append_here (links : Nat) (segments : List String) :
    tree.aim links place (segments ++ ["."]) = tree.aim links place segments := by
  fun_induction aim tree links place segments with
  | case1 links place => rw [List.nil_append, aim, if_pos rfl, aim]
  | case2 links place rest ih => rw [List.cons_append, aim, if_pos rfl, ih]
  | case3 links place rest _ ih =>
    rw [List.cons_append, aim, if_neg (by decide), if_pos rfl, ih]
  | case4 place segment rest hhere hup text hlink =>
    rw [List.cons_append, aim, if_neg hhere, if_neg hup, hlink]
  | case5 place segment rest hhere hup text hlink links ih =>
    rw [List.append_assoc] at ih
    rw [List.cons_append, aim, if_neg hhere, if_neg hup, hlink]
    exact ih
  | case6 links place segment rest hhere hup hlink ih =>
    rw [List.cons_append, aim_name hhere hup hlink, ih]

theorem aim_closedSegments (path : String) :
    tree.aim linkLimit (tree.base path) (closedSegments path) = tree.aimOf path := by
  rw [closedSegments, aimOf]
  split
  · exact aim_append_here linkLimit _
  · rw [List.append_nil]

theorem aimOf_of_find (h : tree.find path = .ok (place, node)) : tree.aimOf path = some place := by
  have hway := (find_eq_ok_iff.1 h).2
  rw [← aim_closedSegments, hway.aim_eq fun _ _ _ => rfl]
  rfl

/-- Where nothing stands nothing is found. -/
theorem exists?_eq_false (hplace : tree.aimOf path = some place) (hnone : tree.node? place = none) :
    tree.exists? path = false := by
  rw [← Bool.not_eq_true, exists?_iff]
  rintro ⟨found, node, hfind⟩
  cases hplace.symm.trans (aimOf_of_find hfind)
  cases hnone.symm.trans (node?_of_find hfind)

/-- After growth the same place is found. -/
theorem Grows.find_eq (h : tree.Grows tree') (hfind : tree.find path = .ok (place, node))
    {node' : Node} (hnode : tree'.node? place = some node') :
    tree'.find path = .ok (place, node') := by
  obtain ⟨husable, hway⟩ := find_eq_ok_iff.1 hfind
  have hbase : tree'.base path = tree.base path := by rw [base, base, h.workingDirectory]
  rw [find_eq_ok_iff, hbase]
  exact ⟨husable, h.way hway hnode⟩

theorem Grows.exists_node (h : tree.Grows tree') (hnode : tree.node? place = some node) :
    ∃ node', tree'.node? place = some node' := by
  cases hnode' : tree'.node? place with
  | some node' => exact ⟨node', rfl⟩
  | none => simp [h.node?_eq_none hnode'] at hnode

theorem Grows.exists? (h : tree.Grows tree') (hexists : tree.exists? path = true) :
    tree'.exists? path = true := by
  obtain ⟨place, node, hfind⟩ := exists?_iff.1 hexists
  obtain ⟨node', hnode'⟩ := h.exists_node (node?_of_find hfind)
  exact exists?_iff.2 ⟨place, node', h.find_eq hfind hnode'⟩

end Find

/-! ## Changes -/

section Changes
variable {tree tree' : Tree} {path : String} {place : Place}

theorem ne_root_of_node? {node : Node} (h : tree.node? place = some node)
    (hne : node ≠ .directory) : place ≠ [] := by
  rintro rfl
  rw [node?_root, Option.some.injEq] at h
  exact hne h.symm

theorem ne_root_of_none (h : tree.node? place = none) : place ≠ [] := by
  rintro rfl
  simp [node?_root] at h

theorem grows_put_directory (h : tree.node? place = none) :
    tree.Grows (tree.put place .directory) := by
  have hput := node?_put tree (ne_root_of_none h) .directory
  constructor
  case workingDirectory => rfl
  case link_iff =>
    intro q text
    rw [hput]
    by_cases hq : q = place
    · simp [hq, h]
    · simp [hq]
  case directory =>
    intro q hnode
    rw [hput, hnode]
    split <;> rfl
  case file =>
    intro q bytes hnode
    have hq : q ≠ place := by
      rintro rfl
      simp [h] at hnode
    exact ⟨bytes, by rw [hput, if_neg hq, hnode]⟩

/-- A place at which a file can be written. -/
def Writable (tree : Tree) (place : Place) : Prop :=
  tree.node? place = none ∨ ∃ bytes, tree.node? place = some (.file bytes)

theorem Writable.ne_root (h : tree.Writable place) : place ≠ [] := by
  rcases h with hnone | ⟨bytes, hfile⟩
  · exact ne_root_of_none hnone
  · exact ne_root_of_node? hfile Node.noConfusion

theorem grows_put_file (h : tree.Writable place) (bytes : List UInt8) :
    tree.Grows (tree.put place (.file bytes)) := by
  have hput := node?_put tree h.ne_root (.file bytes)
  have hold : ∀ node, tree.node? place = some node → ∃ old, node = .file old := by
    intro node hnode
    rcases h with hnone | ⟨old, hfile⟩
    · simp [hnone] at hnode
    · exact ⟨old, by simpa [hfile, eq_comm] using hnode⟩
  constructor
  case workingDirectory => rfl
  case link_iff =>
    intro q text
    rw [hput]
    by_cases hq : q = place
    · subst hq
      rw [if_pos rfl]
      refine iff_of_false (by simp) fun hlink => ?_
      obtain ⟨old, hfile⟩ := hold _ hlink
      cases hfile
    · rw [if_neg hq]
  case directory =>
    intro q hnode
    have hq : q ≠ place := by
      rintro rfl
      obtain ⟨old, hfile⟩ := hold _ hnode
      cases hfile
    rw [hput, if_neg hq, hnode]
  case file =>
    intro q old hnode
    rw [hput]
    by_cases hq : q = place
    · exact ⟨bytes, by rw [if_pos hq]⟩
    · exact ⟨old, by rw [if_neg hq, hnode]⟩

/-- A directory that is made stands at the place of its path, where nothing stood. -/
theorem exists_put_of_makeDirectory (h : tree.makeDirectory path = .ok tree') :
    ∃ place, tree.aimOf path = some place ∧ tree.node? place = none ∧
      tree' = tree.put place .directory := by
  unfold makeDirectory at h
  split at h
  · cases h
  · cases h
  · next place hlead =>
    cases h
    obtain ⟨-, hway⟩ := lead_eq_ok_iff.1 hlead
    refine ⟨place, ?_, hway.node?_eq, rfl⟩
    rw [aimOf, hway.aim_eq (by simp)]
    rfl

theorem exists_target_of_write (hproper : tree.Proper) {bytes : List UInt8}
    (h : tree.write path bytes = .ok tree') :
    endsInSlash path = false ∧ ∃ target, tree.lead true path (Path.segments path) = .ok target ∧
      tree.Writable target.place ∧ tree' = tree.put target.place (.file bytes) := by
  unfold write at h
  split at h
  · cases h
  · cases h
  · next place node hdirectory hlead =>
    have hway := (lead_eq_ok_iff.1 hlead).2
    split at h
    · cases h
    · next hslash =>
      cases h
      refine ⟨by simpa using hslash, _, hlead, Or.inr ?_, rfl⟩
      cases node with
      | file old => exact ⟨old, hway.node?_eq⟩
      | directory => exact absurd rfl hdirectory
      | link text => exact absurd rfl (hway.ne_link (hproper.unlinked_base path) place text)
  · next place hlead =>
    have hway := (lead_eq_ok_iff.1 hlead).2
    split at h
    · cases h
    · next hslash =>
      cases h
      exact ⟨by simpa using hslash, _, hlead, Or.inl hway.node?_eq, rfl⟩

/-- A tree in which a file was written: it stands at the place of its path, where nothing stood or a
file, and is found there. -/
structure Wrote (tree : Tree) (path : String) (bytes : List UInt8) (place : Place)
    (tree' : Tree) : Prop where
  aim : tree.aimOf path = some place
  writable : tree.Writable place
  free : tree.exists? path = false → tree.node? place = none
  eq_put : tree' = tree.put place (.file bytes)
  find : tree'.find path = .ok (place, .file bytes)

theorem wrote_of_write (hproper : tree.Proper) {bytes : List UInt8}
    (h : tree.write path bytes = .ok tree') : ∃ place, tree.Wrote path bytes place tree' := by
  obtain ⟨hslash, target, hlead, hwritable, rfl⟩ := exists_target_of_write hproper h
  obtain ⟨husable, hway⟩ := lead_eq_ok_iff.1 hlead
  have hsegments : closedSegments path = Path.segments path := by
    rw [closedSegments, hslash]
    exact List.append_nil _
  have hgrows := grows_put_file hwritable bytes
  have hnode : (tree.put target.place (.file bytes)).node? target.place = some (.file bytes) := by
    rw [node?_put _ hwritable.ne_root, if_pos rfl]
  have hbase : (tree.put target.place (.file bytes)).base path = tree.base path := rfl
  refine ⟨target.place, hway.aim_eq fun _ _ _ => rfl, hwritable, ?_, rfl, ?_⟩
  · intro hexists
    rcases hwritable with hnone | ⟨old, hfile⟩
    · exact hnone
    · have hfind : tree.find path = .ok (target.place, .file old) := by
        rw [find_eq_ok_iff, hsegments]
        exact ⟨husable, (Grows.refl tree).way hway hfile⟩
      rw [exists?_iff.2 ⟨_, _, hfind⟩] at hexists
      cases hexists
  · rw [find_eq_ok_iff, hsegments, hbase]
    exact ⟨husable, hgrows.way hway hnode⟩

theorem Wrote.grows {bytes : List UInt8} (h : tree.Wrote path bytes place tree') :
    tree.Grows tree' := by
  rw [h.eq_put]
  exact grows_put_file h.writable bytes

theorem Wrote.node?_eq {bytes : List UInt8} (h : tree.Wrote path bytes place tree') (q : Place) :
    tree'.node? q = if q = place then some (.file bytes) else tree.node? q := by
  rw [h.eq_put, node?_put _ h.writable.ne_root]

/-- A path to anything but a directory can be written to. -/
theorem write_eq_of_way (husable : Usable path) {target : Target}
    (hway : Way tree true linkLimit (tree.base path) (Path.segments path) target)
    (hfile : target.node? ≠ some .directory) (hslash : endsInSlash path = false)
    (bytes : List UInt8) : tree.write path bytes = .ok (tree.put target.place (.file bytes)) := by
  rw [write, lead_eq_ok_iff.2 ⟨husable, hway⟩, hslash]
  cases target with
  | free place => rfl
  | there place node =>
    cases node with
    | directory => exact absurd rfl hfile
    | file bytes => rfl
    | link text => rfl

theorem write_of_way (husable : Usable path) {target : Target}
    (hway : Way tree true linkLimit (tree.base path) (Path.segments path) target)
    (hfile : target.node? ≠ some .directory) (hslash : endsInSlash path = false) (text : String) :
    disk.write path text tree =
      (.ok (), tree.put target.place (.file text.toUTF8.data.toList)) := by
  change tree.changed (tree.write path _) = _
  rw [write_eq_of_way husable hway hfile hslash]
  rfl

/-- Making the directories on the way to a directory leaves what is there. -/
theorem makeDirectories_of_there {σ : Type} {disk : Disk σ} {s s' : σ} (hne : path ≠ "")
    (hmade : disk.makeDirectory path s = (.error .alreadyThere, s'))
    (hdirectory : disk.isDirectory path s' = true) :
    disk.makeDirectories path s = (.ok (), s') := by
  rw [Disk.makeDirectories, if_neg hne, Disk.makeOutermost, hmade]
  dsimp only
  rw [if_pos hdirectory]
  rfl

/-- A text that is written is what is read. -/
theorem readText_of_find {text : String}
    (h : tree.find path = .ok (place, .file text.toUTF8.data.toList)) :
    tree.readText path = .ok text := by
  have hbytes : (⟨text.toUTF8.data.toList.toArray⟩ : ByteArray) = text.toByteArray := by simp
  have htext : String.fromUTF8? text.toByteArray = some text := by
    rw [String.fromUTF8?, dif_pos text.isValidUTF8]
    rfl
  unfold readText
  rw [h]
  dsimp only
  rw [hbytes, htext]

end Changes

/-! ## Names in the working directory -/

theorem way_append_points {tree : Tree} {followLast : Bool} {links : Nat} {place : Place}
    {target : Target} {points rest : List String} (hpoints : ∀ s ∈ points, s = ".")
    (hdirectory : tree.node? place = some .directory)
    (h : Way tree followLast links place rest target) :
    Way tree followLast links place (points ++ rest) target := by
  induction points with
  | nil => exact h
  | cons s points ih =>
    obtain ⟨rfl, hrest⟩ := List.forall_mem_cons.1 hpoints
    exact .here hdirectory (ih hrest)

theorem way_of_points {tree : Tree} {followLast : Bool} {links : Nat} {place : Place}
    {points : List String} (hpoints : ∀ s ∈ points, s = ".")
    (hdirectory : tree.node? place = some .directory) :
    Way tree followLast links place points (.there place .directory) := by
  have hend : Way tree followLast links place [] (.there place .directory) :=
    .there links hdirectory
  have h := way_append_points hpoints hdirectory hend
  rwa [List.append_nil] at h

/-- A path of points and a name, which leads to this name in the working directory. -/
structure NamesHere (path name : String) : Prop where
  usable : Usable path
  names : Names name
  relative : Path.isAbsolute path = false
  noSlash : endsInSlash path = false
  segments : ∃ points, Path.segments path = List.replicate points "." ++ [name]

section NamesHere
variable {tree : Tree} (hdirectory : tree.node? tree.workingDirectory = some .directory)
  {path name : String} (h : NamesHere path name)
include hdirectory

theorem isDirectory_here : tree.isDirectory "./." = true := by
  have husable : Usable "./." := ⟨by decide, by decide, by decide⟩
  have hclosed : closedSegments "./." = [".", "."] := by decide
  have hfind : tree.find "./." = .ok (tree.workingDirectory, .directory) := by
    rw [find_eq_ok_iff, hclosed]
    exact ⟨husable, way_of_points (by simp) hdirectory⟩
  rw [isDirectory, hfind]

theorem makeDirectory_here : tree.makeDirectory "./." = .error .alreadyThere := by
  have husable : Usable "./." := ⟨by decide, by decide, by decide⟩
  have hsegments : Path.segments "./." = [".", "."] := by decide
  have hlead : tree.lead false "./." [".", "."] =
      .ok (.there tree.workingDirectory .directory) :=
    lead_eq_ok_iff.2 ⟨husable, way_of_points (by simp) hdirectory⟩
  rw [makeDirectory, hsegments, hlead]

theorem makeDirectories_here : disk.makeDirectories "./." tree = (.ok (), tree) := by
  refine makeDirectories_of_there (by decide) ?_ (isDirectory_here hdirectory)
  change tree.changed (tree.makeDirectory "./.") = _
  rw [makeDirectory_here hdirectory]
  rfl

include h

theorem NamesHere.way {target : Target}
    (hway : Way tree true linkLimit tree.workingDirectory [name] target) :
    Way tree true linkLimit (tree.base path) (Path.segments path) target := by
  obtain ⟨points, hsegments⟩ := h.segments
  rw [base, h.relative, if_neg Bool.false_ne_true, hsegments]
  exact way_append_points (by simp) hdirectory hway

theorem NamesHere.exists?_eq_false
    (hnone : tree.node? (tree.workingDirectory ++ [name]) = none) : tree.exists? path = false := by
  have hclosed : closedSegments path = Path.segments path := by
    rw [closedSegments, h.noSlash]
    exact List.append_nil _
  have hway := h.way hdirectory (.free linkLimit hdirectory h.names hnone)
  rw [exists?, find, hclosed, lead_eq_ok_iff.2 ⟨h.usable, hway⟩]
  rfl

theorem NamesHere.write_eq (hwritable : tree.Writable (tree.workingDirectory ++ [name]))
    (bytes : List UInt8) :
    tree.write path bytes = .ok (tree.put (tree.workingDirectory ++ [name]) (.file bytes)) := by
  rcases hwritable with hnone | ⟨old, hfile⟩
  · exact write_eq_of_way h.usable (h.way hdirectory (.free _ hdirectory h.names hnone))
      (by rintro ⟨⟩) h.noSlash bytes
  · exact write_eq_of_way h.usable (h.way hdirectory (.name hdirectory h.names hfile
      (fun _ => Node.noConfusion) (.there _ hfile))) (by rintro ⟨⟩) h.noSlash bytes

theorem NamesHere.disk_write_eq (hwritable : tree.Writable (tree.workingDirectory ++ [name]))
    (text : String) :
    disk.write path text tree =
      (.ok (), tree.put (tree.workingDirectory ++ [name]) (.file text.toUTF8.data.toList)) := by
  change tree.changed (tree.write path _) = _
  rw [h.write_eq hdirectory hwritable]
  rfl

end NamesHere

end Tree

end ComponentWiring.File
