import ComponentWiring.Proofs.Emissions
import ComponentWiring.Proofs.FailedEmissions
import ComponentWiring.Proofs.PathParts

/-! # Directories that are made

What was made with all directories on the way to it is a directory, and so is what the path of each
directory on the way leads to. No registration has the place of one of them.

* `Tree.Way.respelled`, `Tree.aim_of_respelled`: segments that differ in points alone lead to the
  same directory, and to the same place.
* `Tree.exists_directory_of_holder`: the directories on the way to a directory.
* `Disk.isDirectory_makeDirectories`: what was made is a directory.
* `Emission.Housed`, `Emission.Housed.aimOf_ne`: a tree with the directory of the registrations, and
  the places of registrations in it.
-/

namespace ComponentWiring
set_option autoImplicit false

namespace File.Tree

/-! ## Spellings of a directory's path -/

/-- Where points say nothing, a segment that says something is found in another spelling. -/
theorem exists_respelled {segment : String} {rest segments : List String} (hhere : segment ≠ ".")
    (hsame : (segment :: rest).filter (· ≠ ".") = segments.filter (· ≠ ".")) :
    ∃ points rest', segments = points ++ segment :: rest' ∧ (∀ s ∈ points, s = ".") ∧
      rest.filter (· ≠ ".") = rest'.filter (· ≠ ".") := by
  rw [List.filter_cons_of_pos (by simpa using hhere), eq_comm, List.filter_eq_cons_iff] at hsame
  obtain ⟨points, rest', rfl, hpoints, -, hrest⟩ := hsame
  exact ⟨points, rest', rfl, by simpa using hpoints, hrest.symm⟩

section Way
variable {tree : Tree} {links : Nat} {place : Place} {target : Target}

/-- Segments that differ in points alone lead to the same directory. -/
theorem Way.respelled {segments segments' : List String} {q : Place}
    (h : Way tree true links place segments target) (htarget : target = .there q .directory)
    (hsame : segments.filter (· ≠ ".") = segments'.filter (· ≠ ".")) :
    Way tree true links place segments' target := by
  induction h generalizing segments' with
  | there links hnode =>
    cases htarget
    refine way_of_points (fun s hs => ?_) hnode
    simpa using List.filter_eq_nil_iff.1 hsame.symm s hs
  | here _ _ ih => exact ih htarget (by simpa using hsame)
  | up hdirectory _ ih =>
    obtain ⟨points, rest', rfl, hpoints, hrest⟩ := exists_respelled (by decide) hsame
    exact way_append_points hpoints hdirectory (.up hdirectory (ih htarget hrest))
  | free => cases htarget
  | lastLink _ _ _ _ hlast => cases hlast
  | link hdirectory hname hlink _ _ ih =>
    obtain ⟨points, rest', rfl, hpoints, hrest⟩ := exists_respelled hname.ne_here hsame
    refine way_append_points hpoints hdirectory
      (.link hdirectory hname hlink (by simp) (ih htarget ?_))
    rw [List.filter_append, List.filter_append, hrest]
  | name hdirectory hname hnode hlink _ ih =>
    obtain ⟨points, rest', rfl, hpoints, hrest⟩ := exists_respelled hname.ne_here hsame
    exact way_append_points hpoints hdirectory
      (.name hdirectory hname hnode hlink (ih htarget hrest))

theorem aim_append_points {points : List String} (hpoints : ∀ s ∈ points, s = ".")
    (rest : List String) : tree.aim links place (points ++ rest) = tree.aim links place rest := by
  induction points with
  | nil => rfl
  | cons s points ih =>
    obtain ⟨rfl, hrest⟩ := List.forall_mem_cons.1 hpoints
    rw [List.cons_append, aim, if_pos rfl, ih hrest]

/-- Points say nothing on the place of a path. -/
theorem aim_of_respelled {segments segments' : List String}
    (hsame : segments.filter (· ≠ ".") = segments'.filter (· ≠ ".")) :
    tree.aim links place segments' = tree.aim links place segments := by
  fun_induction aim tree links place segments generalizing segments' with
  | case1 links place =>
    have hpoints : ∀ s ∈ segments', s = "." := by
      simpa using List.filter_eq_nil_iff.1 hsame.symm
    rw [← List.append_nil segments', aim_append_points hpoints, aim]
  | case2 links place rest ih => exact ih (by simpa using hsame)
  | case3 links place rest _ ih =>
    obtain ⟨points, rest', rfl, hpoints, hrest⟩ := exists_respelled (by decide) hsame
    rw [aim_append_points hpoints, aim, if_neg (by decide), if_pos rfl, ih hrest]
  | case4 place segment rest hhere hup text hlink =>
    obtain ⟨points, rest', rfl, hpoints, hrest⟩ := exists_respelled hhere hsame
    rw [aim_append_points hpoints, aim, if_neg hhere, if_neg hup, hlink]
  | case5 place segment rest hhere hup text hlink links ih =>
    obtain ⟨points, rest', rfl, hpoints, hrest⟩ := exists_respelled hhere hsame
    rw [aim_append_points hpoints, aim, if_neg hhere, if_neg hup, hlink]
    exact ih (by rw [List.filter_append, List.filter_append, hrest])
  | case6 links place segment rest hhere hup hlink ih =>
    obtain ⟨points, rest', rfl, hpoints, hrest⟩ := exists_respelled hhere hsame
    rw [aim_append_points hpoints, aim_name hhere hup hlink, ih hrest]

/-! ## Directories on the way -/

/-- From directories alone something leads on. -/
theorem Way.directory {followLast : Bool} {segment : String} {rest : List String}
    (h : Way tree followLast links place (segment :: rest) target) :
    tree.node? place = some .directory := by
  cases h with
  | here hdirectory => exact hdirectory
  | up hdirectory => exact hdirectory
  | free _ hdirectory => exact hdirectory
  | lastLink _ hdirectory => exact hdirectory
  | link hdirectory => exact hdirectory
  | name hdirectory => exact hdirectory

/-- The first segments on the way to a directory lead to a directory. -/
theorem Way.exists_front {front back segments : List String} {q : Place}
    (h : Way tree true links place segments target) (htarget : target = .there q .directory)
    (hsegments : segments = front ++ back) :
    ∃ place', tree.aim links place front = some place' ∧
      tree.node? place' = some .directory := by
  induction h generalizing front with
  | there links hnode =>
    obtain ⟨rfl, -⟩ := List.append_eq_nil_iff.1 hsegments.symm
    cases htarget
    exact ⟨q, by rw [aim], hnode⟩
  | @here links place rest _ hdirectory _ ih =>
    cases front with
    | nil => exact ⟨place, by rw [aim], hdirectory⟩
    | cons first front =>
      obtain ⟨rfl, hrest⟩ := List.cons.inj hsegments
      rw [aim, if_pos rfl]
      exact ih htarget hrest
  | @up links place rest _ hdirectory _ ih =>
    cases front with
    | nil => exact ⟨place, by rw [aim], hdirectory⟩
    | cons first front =>
      obtain ⟨rfl, hrest⟩ := List.cons.inj hsegments
      rw [aim, if_neg (by decide), if_pos rfl]
      exact ih htarget hrest
  | free => cases htarget
  | lastLink _ _ _ _ hlast => cases hlast
  | @link links place segment text rest _ hdirectory hname hlink _ _ ih =>
    cases front with
    | nil => exact ⟨place, by rw [aim], hdirectory⟩
    | cons first front =>
      obtain ⟨rfl, rfl⟩ := List.cons.inj hsegments
      rw [aim, if_neg hname.ne_here, if_neg hname.ne_up, hlink]
      exact ih htarget (List.append_assoc _ _ _).symm
  | @name links place segment rest node _ hdirectory hname hnode hlink _ ih =>
    cases front with
    | nil => exact ⟨place, by rw [aim], hdirectory⟩
    | cons first front =>
      obtain ⟨rfl, hrest⟩ := List.cons.inj hsegments
      rw [aim_name hname.ne_here hname.ne_up (by simpa [hnode] using hlink)]
      exact ih htarget hrest

end Way

section Directory
variable {tree tree' : Tree} {path : String}

theorem isDirectory_iff :
    tree.isDirectory path = true ↔ ∃ place, tree.find path = .ok (place, .directory) := by
  unfold isDirectory
  cases tree.find path with
  | error fault => simp
  | ok found =>
    obtain ⟨place, node⟩ := found
    cases node <;> simp

theorem Grows.isDirectory (h : tree.Grows tree') (hdirectory : tree.isDirectory path = true) :
    tree'.isDirectory path = true := by
  obtain ⟨place, hfind⟩ := isDirectory_iff.1 hdirectory
  exact isDirectory_iff.2 ⟨place, h.find_eq hfind (h.directory place (node?_of_find hfind))⟩

theorem filter_closedSegments (path : String) :
    (closedSegments path).filter (· ≠ ".") = (Path.segments path).filter (· ≠ ".") := by
  rw [closedSegments, List.filter_append]
  split <;> simp

/-- The directories on the way to a directory are there, as their paths are told. -/
theorem exists_directory_of_holder (h : tree.isDirectory path = true) {holder : String}
    (hholder : holder ∈ path :: Path.holders path) :
    ∃ place, tree.aimOf holder = some place ∧ tree.node? place = some .directory := by
  obtain ⟨place, hfind⟩ := isDirectory_iff.1 h
  rw [List.mem_cons] at hholder
  rcases hholder with rfl | hholder
  · exact ⟨place, aimOf_of_find hfind, node?_of_find hfind⟩
  obtain ⟨habsolute, back, hback⟩ := Path.segments_holder hholder
  obtain ⟨-, hway⟩ := find_eq_ok_iff.1 hfind
  have hsame : (closedSegments path).filter (· ≠ ".") =
      ((Path.segments path).filter (· ≠ ".")).filter (· ≠ ".") := by
    rw [filter_closedSegments, List.filter_filter]
    simp only [Bool.and_self]
  obtain ⟨place', haim, hnode⟩ := (hway.respelled rfl hsame).exists_front rfl hback.symm
  have hbase : tree.base holder = tree.base path := by rw [base, base, habsolute]
  have hspelled : ((Path.segments holder).filter (· ≠ ".")).filter (· ≠ ".") =
      (Path.segments holder).filter (· ≠ ".") := by
    rw [List.filter_filter]
    simp only [Bool.and_self]
  rw [← hbase, ← aim_of_respelled hspelled] at haim
  exact ⟨place', haim, hnode⟩

/-! ## Making directories -/

theorem Way.followed {links : Nat} {place : Place} {segments : List String} {target : Target}
    {free : Place} (h : Way tree false links place segments target)
    (htarget : target = .free free) : Way tree true links place segments target := by
  induction h with
  | there => cases htarget
  | here hdirectory _ ih => exact .here hdirectory (ih htarget)
  | up hdirectory _ ih => exact .up hdirectory (ih htarget)
  | free links hdirectory hname hnone => exact .free links hdirectory hname hnone
  | lastLink => cases htarget
  | link hdirectory hname hlink _ _ ih =>
    exact .link hdirectory hname hlink (by simp) (ih htarget)
  | name hdirectory hname hnode hlink _ ih =>
    exact .name hdirectory hname hnode hlink (ih htarget)

theorem isDirectory_of_makeDirectory (h : tree.makeDirectory path = .ok tree') :
    tree'.isDirectory path = true := by
  unfold makeDirectory at h
  split at h
  · cases h
  · cases h
  next place hlead =>
  cases h
  obtain ⟨husable, hway⟩ := lead_eq_ok_iff.1 hlead
  have hnone : tree.node? place = none := hway.node?_eq
  have hnode : (tree.put place .directory).node? place = some .directory := by
    rw [node?_put _ (ne_root_of_none hnone), if_pos rfl]
  have hmade := (grows_put_directory hnone).way (hway.followed rfl) hnode
  refine isDirectory_iff.2 ⟨place, find_eq_ok_iff.2 ⟨husable, ?_⟩⟩
  exact hmade.respelled rfl (filter_closedSegments path).symm

end Directory

end File.Tree

namespace File.Disk
variable {σ : Type} {disk : Disk σ} {tree : σ → Tree}

theorem Shows.grows_write (hshows : disk.Shows tree) {s : σ} (hproper : (tree s).Proper)
    (path text : String) : (tree s).Grows (tree (disk.write path text s).2) := by
  rcases hshows.write path text s with ⟨-, hok⟩ | ⟨-, hsame⟩
  · obtain ⟨place, hwrote⟩ := Tree.wrote_of_write hproper hok
    exact hwrote.grows
  · rw [hsame]
    exact .refl _

theorem suffix_of_makeOutermost {paths left left' : List String} {s : σ}
    (h : (disk.makeOutermost paths left s).1 = .ok left') : left <:+ left' := by
  induction paths generalizing left s with
  | nil =>
    cases h
    exact List.suffix_rfl
  | cons path holders ih =>
    rw [makeOutermost] at h
    split at h
    · cases h
      exact List.suffix_rfl
    · exact (List.suffix_cons path left).trans (ih h)
    · split at h
      · cases h
        exact List.suffix_rfl
      · cases h
    · cases h

section Shows
variable (hshows : disk.Shows tree)
  (hlooks : ∀ path s, disk.isDirectory path s = (tree s).isDirectory path) {path : String} {s : σ}
include hshows hlooks

/-- Where a directory could be made, or is there already, it is there afterwards. -/
theorem isDirectory_makeDirectory (path : String) (s : σ)
    (h : (disk.makeDirectory path s).1 = .ok () ∨
      disk.isDirectory path (disk.makeDirectory path s).2 = true) :
    (tree (disk.makeDirectory path s).2).isDirectory path = true := by
  rcases h with hmade | hthere
  · rcases hshows.makeDirectory path s with ⟨-, hok⟩ | ⟨⟨fault, hfault⟩, -⟩
    · exact Tree.isDirectory_of_makeDirectory hok
    · cases hmade.symm.trans hfault
  · exact hlooks path _ ▸ hthere

/-- Where directories are made in order, the last one is there afterwards. -/
theorem isDirectory_makeEach {front : List String}
    (h : (disk.makeEach (front ++ [path]) s).1 = .ok ()) :
    (tree (disk.makeEach (front ++ [path]) s).2).isDirectory path = true := by
  induction front generalizing s with
  | nil =>
    have hmade := isDirectory_makeDirectory hshows hlooks path s
    rw [List.nil_append, makeEach] at h ⊢
    generalize disk.makeDirectory path s = made at h hmade ⊢
    split at h
    · exact hmade (.inl rfl)
    · split at h
      · next hdirectory =>
        rw [if_pos hdirectory]
        exact hmade (.inr hdirectory)
      · cases h
    · cases h
  | cons first front ih =>
    rw [List.cons_append, makeEach] at h ⊢
    generalize disk.makeDirectory first s = made at h ⊢
    split at h
    · exact ih h
    · split at h
      · next hdirectory =>
        rw [if_pos hdirectory]
        exact ih h
      · cases h
    · cases h

/-- A directory that could be made with all directories on the way to it is there. -/
theorem isDirectory_makeDirectories (hne : path ≠ "")
    (h : (disk.makeDirectories path s).1 = .ok ()) :
    (tree (disk.makeDirectories path s).2).isDirectory path = true := by
  have hmade := isDirectory_makeDirectory hshows hlooks path s
  rw [makeDirectories, if_neg hne, makeOutermost] at h ⊢
  generalize disk.makeDirectory path s = made at h hmade ⊢
  obtain ⟨answer, s'⟩ := made
  rcases answer with fault | u
  · cases fault with
    | missing =>
      dsimp only at h ⊢
      cases houtermost : disk.makeOutermost (Path.holders path) [path] s' with
      | mk answer s'' =>
        rw [houtermost] at h
        cases answer with
        | error fault => cases h
        | ok left =>
          obtain ⟨front, rfl⟩ : [path] <:+ left := by
            apply suffix_of_makeOutermost
            rw [houtermost]
          exact isDirectory_makeEach hshows hlooks h
    | alreadyThere =>
      dsimp only at h ⊢
      by_cases hdirectory : disk.isDirectory path s' = true
      · rw [if_pos hdirectory]
        exact hmade (.inr hdirectory)
      · rw [if_neg hdirectory] at h
        cases h
    | _ => cases h
  · exact hmade (.inl rfl)

end Shows

end File.Disk

namespace Emission
open Artifact File

/-! ## Directories of emissions -/

/-- A tree with the directory of the registrations, if they have one of their own. -/
def Housed (emit : Settings.Emit) (tree : Tree) : Prop :=
  emit.registrationPath = "" ∨ tree.isDirectory emit.registrationPath = true

theorem Housed.grows {emit : Settings.Emit} {tree tree' : Tree} (h : Housed emit tree)
    (hgrows : tree.Grows tree') : Housed emit tree' :=
  h.imp_right hgrows.isDirectory

/-- No registration that is a file has the place of a directory that an emission makes. -/
theorem Housed.aimOf_ne {emit : Settings.Emit} {tree : Tree} (h : Housed emit tree) {a : Identity}
    {place : Place} {bytes : List UInt8}
    (hfind : tree.find (registrationPath emit a) = .ok (place, .file bytes)) :
    ∀ path ∈ emit.registrationPath :: Path.holders emit.registrationPath,
      tree.aimOf path ≠ some place := by
  intro path hpath haim
  have hfile := Tree.node?_of_find hfind
  rcases h with hempty | hdirectory
  · -- the registrations stand in the working directory, from which the way to them starts
    have hrelative := isAbsolute_fileName a
    have hregistration : registrationPath emit a = Path.join "" (fileName a) := by
      rw [← hempty]
      rfl
    have hbase : tree.base (registrationPath emit a) = tree.base "" := by
      rw [Tree.base, Tree.base, hregistration, Path.isAbsolute_join hrelative]
    have hsegments : Path.segments (registrationPath emit a) = [fileName a] := by
      rw [hregistration, Path.segments_join hrelative, Path.segments_empty, segments_fileName]
      rfl
    obtain ⟨-, hway⟩ := Tree.find_eq_ok_iff.1 hfind
    rw [Tree.closedSegments, hsegments, hbase] at hway
    have hpaths : path ∈ [""] := by rwa [hempty] at hpath
    have hplace : tree.aimOf "" = some (tree.base "") := by
      rw [Tree.aimOf, Path.segments_empty, Tree.aim]
    rw [List.mem_singleton.1 hpaths, hplace, Option.some.injEq] at haim
    rw [← haim, hway.directory] at hfile
    cases hfile
  · obtain ⟨place', haim', hnode⟩ := Tree.exists_directory_of_holder hdirectory hpath
    rw [haim, Option.some.injEq] at haim'
    rw [← haim', hfile] at hnode
    cases hnode

/-- Where its directory is, a registration is a file exactly if its place is kept free of
directories. -/
theorem Housed.isFile_iff {emit : Settings.Emit} {tree : Tree} (h : Housed emit tree)
    (hproper : tree.Proper) {a : Identity}
    (hexists : tree.exists? (registrationPath emit a) = true) :
    tree.isFile (registrationPath emit a) = true ↔
      ∀ place, tree.aimOf (registrationPath emit a) = some place → Clear emit tree place := by
  refine ⟨fun hfile place hplace => ?_, Clear.isFile hproper hexists⟩
  rw [Tree.isFile] at hfile
  split at hfile
  · next place' bytes hfind =>
    cases hplace.symm.trans (Tree.aimOf_of_find hfind)
    refine ⟨?_, h.aimOf_ne hfind⟩
    simp [Tree.node?_of_find hfind]
  · cases hfile

section Disk
variable {σ : Type} {disk : Disk σ} {tree : σ → Tree} (hshows : disk.Shows tree)
  (hlooks : ∀ path s, disk.isDirectory path s = (tree s).isDirectory path) {emit : Settings.Emit}

include hshows hlooks in
theorem housed_makeDirectories {s : σ}
    (h : (disk.makeDirectories emit.registrationPath s).1 = .ok ()) :
    Housed emit (tree (disk.makeDirectories emit.registrationPath s).2) := by
  by_cases hempty : emit.registrationPath = ""
  · exact .inl hempty
  · exact .inr (disk.isDirectory_makeDirectories hshows hlooks hempty h)

include hshows

theorem housed_registerAll (order : List Identity) (summary : EmitSummary) {w : Workspace σ}
    (hproper : (tree w.disk).Proper) (h : Housed emit (tree w.disk)) :
    (tree (registerAll disk emit order summary w).2.disk).Proper ∧
      Housed emit (tree (registerAll disk emit order summary w).2.disk) := by
  refine registerAll_keeps (I := fun s => (tree s).Proper ∧ Housed emit (tree s)) ?_ summary w
    ⟨hproper, h⟩
  intro a _ s _ hs
  have hgrows := hshows.grows_write hs.1 (registrationPath emit a) (registration a)
  exact ⟨hgrows.proper hs.1, hs.2.grows hgrows⟩

include hlooks

/-- An emission with a summary leaves the directory of the registrations. -/
theorem housed_toDisk {order : List Identity} {w : Workspace σ} (hproper : (tree w.disk).Proper)
    {summary : EmitSummary} (h : (toDisk disk emit order w).1 = .ok summary) :
    Housed emit (tree (toDisk disk emit order w).2.disk) := by
  have hok : ¬ Fails disk emit order w := by
    rw [← toDisk_error_iff, h]
    rintro ⟨e, ⟨⟩⟩
  obtain ⟨hmade, summary', w', hall, -, hdisk, -⟩ := toDisk_of_not_fails disk emit hok
  have hgrows := (made_makeDirectories hshows emit w.disk).grows
  obtain ⟨hproper', hhoused⟩ := housed_registerAll hshows order .zero
    (w := prepared disk emit w) (hgrows.proper hproper) (housed_makeDirectories hshows hlooks hmade)
  rw [hall] at hproper' hhoused
  rw [hdisk, (writeManifest_leaves disk emit order w').1]
  exact hhoused.grows (hshows.grows_write hproper' _ _)

end Disk

end Emission

end ComponentWiring
