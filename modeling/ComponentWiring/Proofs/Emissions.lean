import ComponentWiring.Emission
import ComponentWiring.Proofs.TreeGrowth

/-! # What emissions do to a tree

An emission makes directories, creates registrations at free places, and writes the manifest after
all of them.

* `Disk.Shows`: a disk whose operations act on a tree, or fail and leave it.
* `Emission.toDisk_keeps`: what every operation of an emission keeps, the emission keeps.
* `Emission.Made`, `Emission.Registered`: what making directories and registering do to a tree.
* `Emission.Registers`, `Emission.registers_registerAll`: what registering comes to.
* `Emission.Emitted`, `Emission.emitted_toDisk`: what an emission does to a tree.
* `Emission.Clear`: a place that is kept free of directories.
-/

namespace ComponentWiring
set_option autoImplicit false

open File

/-! ## Disks that show a tree -/

namespace File

/-- A disk whose operations act on a tree, or fail and leave it. -/
structure Disk.Shows {σ : Type} (disk : Disk σ) (tree : σ → Tree) : Prop where
  exists?_eq : ∀ path s, disk.exists? path s = (tree s).exists? path
  makeDirectory : ∀ path s,
    (disk.makeDirectory path s).1 = .ok () ∧
      (tree s).makeDirectory path = .ok (tree (disk.makeDirectory path s).2) ∨
    (∃ fault, (disk.makeDirectory path s).1 = .error fault) ∧
      tree (disk.makeDirectory path s).2 = tree s
  write : ∀ path text s,
    (disk.write path text s).1 = .ok () ∧
      (tree s).write path text.toUTF8.data.toList = .ok (tree (disk.write path text s).2) ∨
    (∃ fault, (disk.write path text s).1 = .error fault) ∧
      tree (disk.write path text s).2 = tree s

theorem Tree.changed_cases (tree : Tree) (changed : Except Fault Tree) :
    (tree.changed changed).1 = .ok () ∧ changed = .ok (tree.changed changed).2 ∨
      (∃ fault, (tree.changed changed).1 = .error fault) ∧ (tree.changed changed).2 = tree := by
  cases changed with
  | ok tree' => exact Or.inl ⟨rfl, rfl⟩
  | error fault => exact Or.inr ⟨⟨fault, rfl⟩, rfl⟩

theorem Tree.shows_disk : Tree.disk.Shows id where
  exists?_eq _ _ := rfl
  makeDirectory path tree := tree.changed_cases (tree.makeDirectory path)
  write path text tree := tree.changed_cases (tree.write path text.toUTF8.data.toList)

/-! ## What operations keep -/

section Keeps
variable {σ : Type} {disk : Disk σ} {I : σ → Prop}

theorem Disk.makeOutermost_keeps {paths : List String}
    (h : ∀ path ∈ paths, ∀ s, I s → I (disk.makeDirectory path s).2) (left : List String) (s : σ)
    (hs : I s) :
    I (disk.makeOutermost paths left s).2 ∧
      ∀ left', (disk.makeOutermost paths left s).1 = .ok left' →
        ∀ path ∈ left', path ∈ left ∨ path ∈ paths := by
  induction paths generalizing left s with
  | nil =>
    refine ⟨hs, ?_⟩
    rintro left' ⟨⟩ path hpath
    exact Or.inl hpath
  | cons path holders ih =>
    have hmade := h path List.mem_cons_self s hs
    have hrest : ∀ p ∈ holders, ∀ s, I s → I (disk.makeDirectory p s).2 :=
      fun p hp => h p (List.mem_cons_of_mem _ hp)
    rw [makeOutermost]
    generalize disk.makeDirectory path s = made at hmade ⊢
    split
    · refine ⟨hmade, ?_⟩
      rintro left' ⟨⟩ path' hpath'
      exact Or.inl hpath'
    · obtain ⟨hkept, hleft⟩ := ih hrest (path :: left) _ hmade
      refine ⟨hkept, ?_⟩
      intro left' hleft' path' hpath'
      have hmem := hleft left' hleft' path' hpath'
      simp only [List.mem_cons] at hmem ⊢
      tauto
    · split
      · refine ⟨hmade, ?_⟩
        rintro left' ⟨⟩ path' hpath'
        exact Or.inl hpath'
      · exact ⟨hmade, fun _ hleft' => by cases hleft'⟩
    · exact ⟨hmade, fun _ hleft' => by cases hleft'⟩

theorem Disk.makeEach_keeps {paths : List String}
    (h : ∀ path ∈ paths, ∀ s, I s → I (disk.makeDirectory path s).2) (s : σ) (hs : I s) :
    I (disk.makeEach paths s).2 := by
  induction paths generalizing s with
  | nil => exact hs
  | cons path rest ih =>
    have hmade := h path List.mem_cons_self s hs
    have hrest : ∀ p ∈ rest, ∀ s, I s → I (disk.makeDirectory p s).2 :=
      fun p hp => h p (List.mem_cons_of_mem _ hp)
    rw [makeEach]
    generalize disk.makeDirectory path s = made at hmade ⊢
    split
    · exact ih hrest _ hmade
    · split
      · exact ih hrest _ hmade
      · exact hmade
    · exact hmade

theorem Disk.makeDirectories_keeps {path : String}
    (h : ∀ p ∈ path :: Path.holders path, ∀ s, I s → I (disk.makeDirectory p s).2) (s : σ)
    (hs : I s) : I (disk.makeDirectories path s).2 := by
  rw [makeDirectories]
  split
  · exact hs
  obtain ⟨hkept, hleft⟩ := Disk.makeOutermost_keeps h [] s hs
  generalize disk.makeOutermost (path :: Path.holders path) [] s = outermost at hkept hleft ⊢
  split
  · next left s' =>
    refine Disk.makeEach_keeps (fun p hp => h p ?_) s' hkept
    simpa using hleft left rfl p hp
  · exact hkept

end Keeps

end File

/-- A manifest is a line that tells where it comes from, and a line for each component. -/
theorem Artifact.manifest_eq (order : List Identity) :
    manifest order = "# Generated by influx. Do not edit.\n" ++
      String.join (order.map fun a => a.name ++ "\n") := by
  have hheader : header ++ "\n" = "# Generated by influx. Do not edit.\n" := by decide
  rw [manifest, hheader]

namespace Emission
open Artifact

section Keeps
variable {σ : Type} {disk : Disk σ} {emit : Settings.Emit} {order : List Identity} {I : σ → Prop}

theorem registerAll_keeps
    (h : ∀ a ∈ order, ∀ s, disk.exists? (registrationPath emit a) s = false → I s →
      I (disk.write (registrationPath emit a) (registration a) s).2)
    (summary : EmitSummary) (w : Workspace σ) (hw : I w.disk) :
    I (registerAll disk emit order summary w).2.disk := by
  induction order generalizing summary w with
  | nil => exact hw
  | cons a rest ih =>
    have hrest : ∀ a ∈ rest, ∀ s, disk.exists? (registrationPath emit a) s = false → I s →
        I (disk.write (registrationPath emit a) (registration a) s).2 :=
      fun a ha => h a (List.mem_cons_of_mem _ ha)
    rw [registerAll]
    split
    · exact ih hrest _ w hw
    have hregistered : I (register disk emit a w).2.disk := by
      rw [register]
      split
      · exact hw
      · next hexists =>
        have hwritten := h a List.mem_cons_self w.disk (by simpa using hexists) hw
        generalize disk.write (registrationPath emit a) (registration a) w.disk = written
          at hwritten ⊢
        split <;> exact hwritten
    generalize register disk emit a w = registered at hregistered ⊢
    split
    · exact ih hrest _ _ hregistered
    · exact ih hrest _ _ hregistered
    · exact hregistered

/-- What every operation of an emission keeps, the emission keeps. -/
theorem toDisk_keeps
    (hdirectory : ∀ path ∈ emit.registrationPath :: Path.holders emit.registrationPath, ∀ s,
      I s → I (disk.makeDirectory path s).2)
    (hregistration : ∀ a ∈ order, ∀ s, disk.exists? (registrationPath emit a) s = false → I s →
      I (disk.write (registrationPath emit a) (registration a) s).2)
    (hmanifest : ∀ s, I s → I (disk.write emit.manifestPath (manifest order) s).2)
    (w : Workspace σ) (hw : I w.disk) : I (toDisk disk emit order w).2.disk := by
  rw [toDisk]
  have hmade := Disk.makeDirectories_keeps hdirectory w.disk hw
  generalize disk.makeDirectories emit.registrationPath w.disk = made at hmade ⊢
  split
  · exact hmade
  · next u s =>
    have hregistered := registerAll_keeps hregistration EmitSummary.zero { w with disk := s } hmade
    generalize registerAll disk emit order EmitSummary.zero { w with disk := s } = registered
      at hregistered ⊢
    split
    · exact hregistered
    · next summary w' =>
      have hwritten := hmanifest w'.disk hregistered
      rw [writeManifest]
      generalize disk.write emit.manifestPath (manifest order) w'.disk = written at hwritten ⊢
      obtain ⟨answer, s'⟩ := written
      cases answer with
      | ok u => exact hwritten
      | error fault => exact hwritten

end Keeps

/-! ## What an emission does to a tree -/

/-- A tree in which directories of an emission may have been made. -/
structure Made (emit : Settings.Emit) (tree tree' : Tree) : Prop where
  grows : tree.Grows tree'
  changed : ∀ place, tree'.node? place ≠ tree.node? place →
    tree.node? place = none ∧ tree'.node? place = some .directory ∧
      ∃ path ∈ emit.registrationPath :: Path.holders emit.registrationPath,
        tree.aimOf path = some place

/-- The bytes of a component's registration. -/
def bytesOf (a : Identity) : List UInt8 := (registration a).toUTF8.data.toList

/-- A tree in which registrations of components were created. -/
structure Registered (emit : Settings.Emit) (order : List Identity) (tree tree' : Tree)
    (created : List Place) : Prop where
  grows : tree.Grows tree'
  nodup : created.Nodup
  new : ∀ place ∈ created, tree.node? place = none ∧
    ∃ a ∈ order, tree.aimOf (registrationPath emit a) = some place ∧
      tree'.node? place = some (.file (bytesOf a))
  same : ∀ place, place ∉ created → tree'.node? place = tree.node? place

/-- What an emission does to a tree: directories are made, registrations are created, and, unless
something fails, the manifest is written. -/
inductive Emitted (emit : Settings.Emit) (order : List Identity) (tree : Tree) :
    Except Error EmitSummary → Tree → Prop where
  | failed (e : Error) {made tree' : Tree} {created : List Place} (hmade : Made emit tree made)
    (hregistered : Registered emit order made tree' created) :
    Emitted emit order tree (.error e) tree'
  | done {summary : EmitSummary} {made registered tree' : Tree} {created : List Place}
    {place : Place} (hmade : Made emit tree made)
    (hregistered : Registered emit order made registered created)
    (hwritten : summary.written = created.length) (htotal : summary.total = order.length)
    (hexists : ∀ a ∈ order, registered.exists? (registrationPath emit a) = true)
    (hwrote : registered.Wrote emit.manifestPath (manifest order).toUTF8.data.toList place tree') :
    Emitted emit order tree (.ok summary) tree'

section Trees
variable {emit : Settings.Emit} {order : List Identity} {tree tree' tree'' : Tree} {place : Place}
  {created : List Place}

theorem Made.refl (emit : Settings.Emit) (tree : Tree) : Made emit tree tree :=
  ⟨.refl tree, fun _ h => absurd rfl h⟩

theorem Made.put (h : Made emit tree tree') {path : String}
    (hpath : path ∈ emit.registrationPath :: Path.holders emit.registrationPath)
    (haim : tree'.aimOf path = some place) (hnone : tree'.node? place = none) :
    Made emit tree (tree'.put place .directory) where
  grows := h.grows.trans (Tree.grows_put_directory hnone)
  changed := by
    intro q hq
    rw [Tree.node?_put _ (Tree.ne_root_of_none hnone)] at hq ⊢
    by_cases hplace : q = place
    · subst hplace
      rw [if_pos rfl]
      exact ⟨h.grows.node?_eq_none hnone, rfl, path, hpath, h.grows.aimOf_eq path ▸ haim⟩
    · rw [if_neg hplace] at hq ⊢
      exact h.changed q hq

theorem Registered.refl (emit : Settings.Emit) (order : List Identity) (tree : Tree) :
    Registered emit order tree tree [] where
  grows := .refl tree
  nodup := List.nodup_nil
  new := by simp
  same := fun _ _ => rfl

theorem Registered.skip (h : Registered emit order tree tree' created) (a : Identity) :
    Registered emit (a :: order) tree tree' created where
  grows := h.grows
  nodup := h.nodup
  new := by
    intro p hp
    obtain ⟨hnone, b, hb, haim, hnode⟩ := h.new p hp
    exact ⟨hnone, b, List.mem_cons_of_mem _ hb, haim, hnode⟩
  same := h.same

theorem Registered.create {a : Identity} (hnone : tree.node? place = none)
    (hwrote : tree.Wrote (registrationPath emit a) (bytesOf a) place tree')
    (h : Registered emit order tree' tree'' created) :
    Registered emit (a :: order) tree tree'' (place :: created) := by
  have hplace : tree'.node? place = some (.file (bytesOf a)) := by
    rw [hwrote.node?_eq, if_pos rfl]
  have hnotMem : place ∉ created := by
    intro hmem
    simp [(h.new place hmem).1] at hplace
  constructor
  case grows => exact hwrote.grows.trans h.grows
  case nodup => exact List.nodup_cons.2 ⟨hnotMem, h.nodup⟩
  case new =>
    intro p hp
    rcases List.mem_cons.1 hp with rfl | hp
    · refine ⟨hnone, a, List.mem_cons_self, hwrote.aim, ?_⟩
      rw [h.same _ hnotMem, hplace]
    · obtain ⟨hfree, b, hb, haim, hnode⟩ := h.new p hp
      rw [hwrote.grows.aimOf_eq] at haim
      exact ⟨hwrote.grows.node?_eq_none hfree, b, List.mem_cons_of_mem _ hb, haim, hnode⟩
  case same =>
    intro p hp
    rw [List.mem_cons, not_or] at hp
    rw [h.same p hp.2, hwrote.node?_eq, if_neg hp.1]

theorem Registered.changed {made registered : Tree}
    (h : Registered emit order made registered created) (hmade : Made emit tree made)
    (hne : registered.node? place ≠ tree.node? place) :
    tree.node? place = none ∧ (∃ a ∈ order, tree.aimOf (registrationPath emit a) = some place ∧
      registered.node? place = some (.file (bytesOf a))) ∨
    tree.node? place = none ∧ registered.node? place = some .directory ∧
      ∃ path ∈ emit.registrationPath :: Path.holders emit.registrationPath,
        tree.aimOf path = some place := by
  by_cases hmem : place ∈ created
  · obtain ⟨hnone, a, ha, haim, hnode⟩ := h.new place hmem
    rw [hmade.grows.aimOf_eq] at haim
    exact Or.inl ⟨hmade.grows.node?_eq_none hnone, a, ha, haim, hnode⟩
  · rw [h.same place hmem] at hne ⊢
    exact Or.inr (hmade.changed place hne)

theorem Emitted.grows {result : Except Error EmitSummary}
    (h : Emitted emit order tree result tree') : tree.Grows tree' := by
  cases h with
  | failed e hmade hregistered => exact hmade.grows.trans hregistered.grows
  | done hmade hregistered _ _ _ hwrote =>
    exact (hmade.grows.trans hregistered.grows).trans hwrote.grows

/-- What stands elsewhere than at the place of the manifest stays. -/
theorem Emitted.node?_eq {result : Except Error EmitSummary}
    (h : Emitted emit order tree result tree') {node : Node} (hnode : tree.node? place = some node)
    (hplace : tree.aimOf emit.manifestPath ≠ some place) : tree'.node? place = some node := by
  have hregistered : ∀ {made registered : Tree} {created : List Place}, Made emit tree made →
      Registered emit order made registered created → registered.node? place = some node := by
    intro made registered created hmade hregistered
    by_contra hne
    rw [← hnode] at hne
    rcases hregistered.changed hmade hne with ⟨hnone, -⟩ | ⟨hnone, -⟩
    · simp [hnone] at hnode
    · simp [hnone] at hnode
  cases h with
  | failed e hmade hfailed => exact hregistered hmade hfailed
  | done hmade hdone _ _ _ hwrote =>
    rw [hwrote.node?_eq, if_neg, hregistered hmade hdone]
    rintro rfl
    exact hplace ((hmade.grows.trans hdone.grows).aimOf_eq _ ▸ hwrote.aim)

/-- A place at which no directory stands and none is made by an emission. -/
structure Clear (emit : Settings.Emit) (tree : Tree) (place : Place) : Prop where
  node? : tree.node? place ≠ some .directory
  directories : ∀ path ∈ emit.registrationPath :: Path.holders emit.registrationPath,
    tree.aimOf path ≠ some place

/-- A place that is kept free of directories was so before. -/
theorem Clear.of_grows (h : Clear emit tree' place) (hgrows : tree.Grows tree') :
    Clear emit tree place where
  node? hnode := h.node? (hgrows.directory place hnode)
  directories path hpath := hgrows.aimOf_eq path ▸ h.directories path hpath

theorem Emitted.clear {result : Except Error EmitSummary}
    (h : Emitted emit order tree result tree') {place : Place} (hclear : Clear emit tree place) :
    Clear emit tree' place := by
  have hregistered : ∀ {made registered : Tree} {created : List Place}, Made emit tree made →
      Registered emit order made registered created →
        registered.node? place ≠ some .directory := by
    intro made registered created hmade hregistered hnode
    have hne : registered.node? place ≠ tree.node? place := hnode ▸ hclear.node?.symm
    rcases hregistered.changed hmade hne with ⟨-, a, -, -, hfile⟩ | ⟨-, -, path, hpath, haim⟩
    · rw [hnode] at hfile
      cases hfile
    · exact hclear.directories path hpath haim
  constructor
  case node? =>
    cases h with
    | failed e hmade hfailed => exact hregistered hmade hfailed
    | done hmade hdone _ _ _ hwrote =>
      rw [hwrote.node?_eq]
      split
      · exact fun hnode => Node.noConfusion (Option.some.inj hnode)
      · exact hregistered hmade hdone
  case directories =>
    intro path hpath
    rw [h.grows.aimOf_eq]
    exact hclear.directories path hpath

/-- What is found at a place that is kept free of directories is a file. -/
theorem Clear.isFile {path : String} (hproper : tree.Proper) (hexists : tree.exists? path = true)
    (hclear : ∀ place, tree.aimOf path = some place → Clear emit tree place) :
    tree.isFile path = true := by
  obtain ⟨place, node, hfind⟩ := Tree.exists?_iff.1 hexists
  have hnode := (hclear place (Tree.aimOf_of_find hfind)).node?
  rw [Tree.node?_of_find hfind] at hnode
  obtain ⟨-, hway⟩ := Tree.find_eq_ok_iff.1 hfind
  rw [Tree.isFile, hfind]
  cases node with
  | file bytes => rfl
  | directory => exact absurd rfl hnode
  | link text => exact absurd rfl (hway.ne_link (hproper.unlinked_base path) place text)

/-- After an emission the manifest lists the order, and all registrations are there. -/
theorem Emitted.artifacts {summary : EmitSummary}
    (h : Emitted emit order tree (.ok summary) tree') :
    tree'.readText emit.manifestPath = .ok (manifest order) ∧
      ∀ a ∈ order, tree'.exists? (registrationPath emit a) = true := by
  cases h with
  | done _ _ _ _ hexists hwrote =>
    exact ⟨Tree.readText_of_find hwrote.find, fun a ha => hwrote.grows.exists? (hexists a ha)⟩

end Trees

/-- Every component that was handled has something at its registration path. -/
def Handled {σ : Type} (emit : Settings.Emit) (tree : σ → Tree) (w : Workspace σ) : Prop :=
  ∀ a, w.handled.has a = true → (tree w.disk).exists? (registrationPath emit a) = true

theorem Handled.handle {σ : Type} {emit : Settings.Emit} {tree : σ → Tree} {w w' : Workspace σ}
    (h : Handled emit tree w) (hsame : w'.handled = w.handled)
    (hgrows : (tree w.disk).Grows (tree w'.disk)) {a : Identity}
    (hexists : (tree w'.disk).exists? (registrationPath emit a) = true) :
    Handled emit tree (w'.handle a) := by
  intro b hb
  rw [Workspace.handle, Seen.has_insert, hsame, Bool.or_eq_true, decide_eq_true_eq] at hb
  rcases hb with rfl | hb
  · exact hexists
  · exact hgrows.exists? (h b hb)

/-- What registering components, one after the other, comes to. -/
structure Registers {σ : Type} (emit : Settings.Emit) (tree : σ → Tree) (order : List Identity)
    (summary : EmitSummary) (w w' : Workspace σ) (result : Except Error EmitSummary) : Prop where
  handled : Handled emit tree w'
  created : ∃ created, Registered emit order (tree w.disk) (tree w'.disk) created ∧
    ∀ summary', result = .ok summary' →
      summary'.written = summary.written + created.length ∧
      summary'.total = summary.total + order.length ∧
      ∀ a ∈ order, (tree w'.disk).exists? (registrationPath emit a) = true

section Registers
variable {σ : Type} {emit : Settings.Emit} {tree : σ → Tree} {order : List Identity}
  {summary : EmitSummary} {w v w' : Workspace σ} {result : Except Error EmitSummary} {a : Identity}

/-- A component that is found registered is skipped. -/
theorem Registers.skip (h : Registers emit tree order summary.addSkipped v w' result)
    (htree : tree v.disk = tree w.disk)
    (hexists : (tree w.disk).exists? (registrationPath emit a) = true) :
    Registers emit tree (a :: order) summary w w' result := by
  obtain ⟨hhandled, created, hregistered, hok⟩ := h
  rw [htree] at hregistered
  refine ⟨hhandled, created, hregistered.skip a, fun summary' hsummary' => ?_⟩
  obtain ⟨hwritten, htotal, hall⟩ := hok summary' hsummary'
  have hone : summary.addSkipped.total = summary.total + 1 := rfl
  refine ⟨hwritten, by rw [htotal, hone, List.length_cons]; omega, ?_⟩
  rw [List.forall_mem_cons]
  exact ⟨hregistered.grows.exists? hexists, hall⟩

/-- A component whose registration is written at a free place is counted as written. -/
theorem Registers.create {place : Place}
    (h : Registers emit tree order summary.addWritten v w' result)
    (hnone : (tree w.disk).node? place = none)
    (hwrote : (tree w.disk).Wrote (registrationPath emit a) (bytesOf a) place (tree v.disk)) :
    Registers emit tree (a :: order) summary w w' result := by
  obtain ⟨hhandled, created, hregistered, hok⟩ := h
  refine ⟨hhandled, place :: created, hregistered.create hnone hwrote, fun summary' hsummary' => ?_⟩
  obtain ⟨hwritten, htotal, hall⟩ := hok summary' hsummary'
  have hone : summary.addWritten.written = summary.written + 1 := rfl
  have hone' : summary.addWritten.total = summary.total + 1 := by
    simp only [EmitSummary.total, EmitSummary.addWritten]
    omega
  refine ⟨by rw [hwritten, hone, List.length_cons]; omega,
    by rw [htotal, hone', List.length_cons]; omega, ?_⟩
  rw [List.forall_mem_cons]
  exact ⟨hregistered.grows.exists? (Tree.exists?_iff.2 ⟨place, _, hwrote.find⟩), hall⟩

end Registers

section Disk
variable {σ : Type} {disk : Disk σ} {tree : σ → Tree} (hshows : disk.Shows tree)
  {emit : Settings.Emit}
include hshows

theorem made_makeDirectories (emit : Settings.Emit) (s : σ) :
    Made emit (tree s) (tree (disk.makeDirectories emit.registrationPath s).2) := by
  refine Disk.makeDirectories_keeps (I := fun s' => Made emit (tree s) (tree s')) ?_ s (.refl _ _)
  intro path hpath s' hmade
  rcases hshows.makeDirectory path s' with ⟨-, hok⟩ | ⟨-, hsame⟩
  · obtain ⟨place, haim, hnone, heq⟩ := Tree.exists_put_of_makeDirectory hok
    rw [heq]
    exact hmade.put hpath haim hnone
  · rw [hsame]
    exact hmade

/-- A component is found registered, or its registration is created at a free place, or nothing
is changed. -/
theorem register_cases (emit : Settings.Emit) (a : Identity) (w : Workspace σ)
    (hproper : (tree w.disk).Proper) :
    (register disk emit a w).2.handled = w.handled ∧
    ((register disk emit a w).1 = .ok false ∧
        tree (register disk emit a w).2.disk = tree w.disk ∧
        (tree w.disk).exists? (registrationPath emit a) = true ∨
      (register disk emit a w).1 = .ok true ∧
        (∃ place, (tree w.disk).node? place = none ∧
          (tree w.disk).Wrote (registrationPath emit a) (bytesOf a) place
            (tree (register disk emit a w).2.disk)) ∨
      (∃ e, (register disk emit a w).1 = .error e) ∧
        tree (register disk emit a w).2.disk = tree w.disk) := by
  rw [register, hshows.exists?_eq]
  split
  · next hexists => exact ⟨rfl, Or.inl ⟨rfl, rfl, hexists⟩⟩
  next hexists =>
  have hwrite := hshows.write (registrationPath emit a) (registration a) w.disk
  generalize disk.write (registrationPath emit a) (registration a) w.disk = written at hwrite ⊢
  obtain ⟨answer, s⟩ := written
  rcases hwrite with ⟨rfl, hok⟩ | ⟨⟨fault, rfl⟩, hsame⟩
  · obtain ⟨place, hwrote⟩ := Tree.wrote_of_write hproper hok
    exact ⟨rfl, Or.inr (Or.inl ⟨rfl, place, hwrote.free (by simpa using hexists), hwrote⟩)⟩
  · exact ⟨rfl, Or.inr (Or.inr ⟨⟨_, rfl⟩, hsame⟩)⟩

theorem registers_registerAll (order : List Identity) (summary : EmitSummary) (w : Workspace σ)
    (hproper : (tree w.disk).Proper) (hhandled : Handled emit tree w) :
    Registers emit tree order summary w (registerAll disk emit order summary w).2
      (registerAll disk emit order summary w).1 := by
  induction order generalizing summary w with
  | nil =>
    refine ⟨hhandled, [], .refl emit [] _, ?_⟩
    rintro summary' ⟨⟩
    simp
  | cons a rest ih =>
    rw [registerAll]
    split
    · next hhas => exact (ih summary.addSkipped w hproper hhandled).skip rfl (hhandled a hhas)
    obtain ⟨hsame, hcases⟩ := register_cases hshows emit a w hproper
    generalize register disk emit a w = registered at hsame hcases ⊢
    obtain ⟨answer, v⟩ := registered
    dsimp only at hsame hcases
    rcases hcases with ⟨rfl, htree, hexists⟩ | ⟨rfl, place, hnone, hwrote⟩ | ⟨⟨e, rfl⟩, htree⟩
    · have hhandled' : Handled emit tree (v.handle a) :=
        hhandled.handle hsame (htree ▸ .refl _) (htree ▸ hexists)
      exact (ih summary.addSkipped (v.handle a) (htree ▸ hproper) hhandled').skip htree hexists
    · have hhandled' : Handled emit tree (v.handle a) :=
        hhandled.handle hsame hwrote.grows (Tree.exists?_iff.2 ⟨place, _, hwrote.find⟩)
      exact (ih summary.addWritten (v.handle a) (hwrote.grows.proper hproper) hhandled').create
        hnone hwrote
    · refine ⟨?_, [], htree ▸ .refl emit _ _, fun _ hok => by cases hok⟩
      intro b hb
      rw [hsame] at hb
      exact htree ▸ hhandled b hb

/-- What an emission does to the tree of a disk. -/
theorem emitted_toDisk (order : List Identity) (w : Workspace σ) (hproper : (tree w.disk).Proper)
    (hhandled : Handled emit tree w) :
    Handled emit tree (toDisk disk emit order w).2 ∧
      Emitted emit order (tree w.disk) (toDisk disk emit order w).1
        (tree (toDisk disk emit order w).2.disk) := by
  have hmade := made_makeDirectories hshows emit w.disk
  have hmanifest := hshows.write emit.manifestPath (manifest order)
  rw [toDisk]
  generalize disk.makeDirectories emit.registrationPath w.disk = directories at hmade ⊢
  obtain ⟨answer, s⟩ := directories
  have hhandled' : Handled emit tree { w with disk := s } :=
    fun b hb => hmade.grows.exists? (hhandled b hb)
  cases answer with
  | error fault => exact ⟨hhandled', .failed _ hmade (.refl emit order _)⟩
  | ok u =>
    obtain ⟨hhandled'', created, hregistered, hok⟩ := registers_registerAll hshows order
      EmitSummary.zero { w with disk := s } (hmade.grows.proper hproper) hhandled'
    dsimp only
    generalize registerAll disk emit order EmitSummary.zero { w with disk := s } = registered
      at hhandled'' hregistered hok ⊢
    obtain ⟨answer, w'⟩ := registered
    cases answer with
    | error e => exact ⟨hhandled'', .failed e hmade hregistered⟩
    | ok summary =>
      obtain ⟨hwritten, htotal, hexists⟩ := hok summary rfl
      have hwrite := hmanifest w'.disk
      dsimp only [writeManifest]
      generalize disk.write emit.manifestPath (manifest order) w'.disk = written at hwrite ⊢
      obtain ⟨answer, s'⟩ := written
      rcases hwrite with ⟨rfl, hwrite⟩ | ⟨⟨fault, rfl⟩, hsame⟩
      · have hproper' : (tree w'.disk).Proper :=
          (hmade.grows.trans hregistered.grows).proper hproper
        obtain ⟨place, hwrote⟩ := Tree.wrote_of_write hproper' hwrite
        refine ⟨fun b hb => hwrote.grows.exists? (hhandled'' b hb), ?_⟩
        exact .done hmade hregistered (by simpa [EmitSummary.zero] using hwritten)
          (by simpa [EmitSummary.zero, EmitSummary.total] using htotal) hexists hwrote
      · dsimp only at hsame ⊢
        refine ⟨fun b hb => hsame ▸ hhandled'' b hb, ?_⟩
        rw [hsame]
        exact .failed _ hmade hregistered

end Disk

end Emission

end ComponentWiring
