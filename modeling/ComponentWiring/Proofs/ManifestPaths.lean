import ComponentWiring.Proofs.DryRuns

/-! # Manifests and registrations apart

The names of the manifest and of the registrations' directory are compared as texts. Names of one
segment that differ lead to different paths, but a path has many spellings: where both names spell
one path, no emission succeeds.

* `Path.partsBelow`, `Path.parts_join_eq`: the parts of a path below a directory.
* `Tree.write_of_respelled`: paths with the same parts lead to one directory, which no file can
  replace.
* `Emission.manifest_apart_iff`: when the manifest and the registrations have different paths, and
  what becomes of emissions otherwise.
-/

namespace ComponentWiring
set_option autoImplicit false

namespace File.Path

/-! ## Spellings of a path -/

/-- The parts of a path below a directory. An absolute path leaves the directory; a point at the
start of another one counts only below the empty path. -/
def partsBelow (base path : String) : List Part :=
  if isAbsolute path then parts path
  else if base = "" then parts path
  else parts base ++ inner (segments path)

theorem parts_join_eq (base path : String) : parts (join base path) = partsBelow base path := by
  rw [partsBelow]
  cases hroot : isAbsolute path with
  | true => rw [join, hroot, if_pos rfl, if_pos rfl]
  | false =>
    rw [if_neg Bool.false_ne_true]
    by_cases hbase : base = ""
    · rw [if_pos hbase, hbase, join, hroot, if_neg Bool.false_ne_true, if_pos (.inl rfl)]
      simp
    · rw [if_neg hbase, parts_join_of_ne hbase hroot]

/-- A name of one segment that is not the directory itself. -/
structure IsName (name : String) : Prop where
  ne_empty : name ≠ ""
  ne_here : name ≠ "."
  noSlash : '/' ∉ name.toList

/-- The part that a name is. -/
def partOf (name : String) : Part := if name = ".." then .up else .name name

theorem partOf_injective {a b : String} (h : partOf a = partOf b) : a = b := by
  unfold partOf at h
  split at h <;> split at h
  · next ha hb => rw [ha, hb]
  · cases h
  · cases h
  · exact Part.name.inj h

theorem IsName.partsBelow_eq {name : String} (h : IsName name) (base : String) :
    partsBelow base name = parts base ++ [partOf name] := by
  have hrelative : isAbsolute name = false := by
    rw [isAbsolute, decide_eq_false_iff_not]
    exact fun hhead => h.noSlash (List.mem_of_mem_head? hhead)
  have hsegments := segments_eq_singleton h.ne_empty h.noSlash
  have hlast : inner (segments name) = [partOf name] := by
    simp [hsegments, inner, h.ne_here, partOf]
  rw [partsBelow, if_neg (by simp [hrelative])]
  by_cases hbase : base = ""
  · rw [if_pos hbase, hbase, parts_empty, List.nil_append,
      parts_of_relative hrelative (by simpa [hsegments] using h.ne_here), hlast]
  · rw [if_neg hbase, hlast]

end File.Path

namespace File.Tree

/-- A file cannot be written where another spelling of the path leads to a directory. -/
theorem write_of_respelled {tree : Tree} {path path' : String} {place : Place}
    (hfind : tree.find path = .ok (place, .directory))
    (hparts : Path.parts path = Path.parts path') (bytes : List UInt8) :
    ∃ fault, tree.write path' bytes = .error fault := by
  obtain ⟨-, hway⟩ := find_eq_ok_iff.1 hfind
  have hroot : Path.isAbsolute path' = Path.isAbsolute path := by
    rw [Bool.eq_iff_iff, ← Path.head_parts_eq_root_iff, ← Path.head_parts_eq_root_iff, hparts]
  have hbase : tree.base path' = tree.base path := by rw [base, base, hroot]
  have hsegments : (closedSegments path).filter (· ≠ ".") =
      (Path.segments path').filter (· ≠ ".") := by
    rw [filter_closedSegments, Path.segments_of_parts, Path.segments_of_parts, hparts]
  have hway' := hway.respelled rfl hsegments
  rw [← hbase] at hway'
  rw [write]
  cases hlead : tree.lead true path' (Path.segments path') with
  | error fault => exact ⟨fault, rfl⟩
  | ok target =>
    obtain ⟨-, hlast⟩ := lead_eq_ok_iff.1 hlead
    obtain rfl : target = .there place .directory :=
      Except.ok.inj (hlast.walk_eq.symm.trans hway'.walk_eq)
    exact ⟨.isDirectory, rfl⟩

end File.Tree

namespace Emission
open Artifact File

/-! ## Emissions -/

/-- Where the manifest has the path of the registrations' directory, it cannot be written. -/
theorem write_manifest_of_collision {emit : Settings.Emit}
    (hparts : Path.parts emit.manifestPath = Path.parts emit.registrationPath)
    (order : List Identity) {w : Workspace Tree} (hproper : w.disk.Proper)
    (hmade : (Tree.disk.makeDirectories emit.registrationPath w.disk).1 = .ok ())
    (bytes : List UInt8) :
    ∃ fault, Tree.write (registerAll Tree.disk emit order .zero (prepared Tree.disk emit w)).2.disk
      emit.manifestPath bytes = .error fault := by
  have hgrows := (made_makeDirectories Tree.shows_disk emit w.disk).grows
  have hmade' := housed_makeDirectories Tree.shows_disk (fun _ _ => rfl) hmade
  have hhoused := (housed_registerAll Tree.shows_disk order .zero
    (w := prepared Tree.disk emit w) (hgrows.proper hproper) hmade').2
  rcases hhoused with hempty | hdirectory
  · rw [hempty, Path.parts_empty, Path.parts_eq_nil_iff] at hparts
    rw [hparts]
    exact ⟨.missing, rfl⟩
  · obtain ⟨place, hfind⟩ := Tree.isDirectory_iff.1 hdirectory
    exact Tree.write_of_respelled hfind hparts.symm bytes

theorem toDisk_of_collision {emit : Settings.Emit}
    (hparts : Path.parts emit.manifestPath = Path.parts emit.registrationPath)
    (order : List Identity) {w : Workspace Tree} (hproper : w.disk.Proper) :
    ∃ e, (toDisk Tree.disk emit order w).1 = .error e := by
  rw [toDisk_error_iff]
  cases hmade : (Tree.disk.makeDirectories emit.registrationPath w.disk).1 with
  | error fault => exact .directories fault hmade
  | ok u =>
    cases hregistered : (registerAll Tree.disk emit order .zero (prepared Tree.disk emit w)).1 with
    | error e =>
      have hfails := (registerAll_error_iff Tree.disk emit order .zero _).1 ⟨e, hregistered⟩
      exact .registration hmade hfails
    | ok summary =>
      obtain ⟨fault, hfault⟩ := write_manifest_of_collision hparts order hproper hmade
        (manifest order).toUTF8.data.toList
      refine .manifest fault summary hmade hregistered ?_
      change (Tree.changed _ (Tree.write _ _ _)).1 = _
      rw [hfault]
      rfl

/-- Two names that are different texts for one path below a directory. -/
structure Respelled (directory a b : String) : Prop where
  ne : a ≠ b
  parts_eq : Path.partsBelow directory a = Path.partsBelow directory b

theorem names_ne_of_accepted {emit : Settings.Emit} (haccepted : emit.check = .ok ()) :
    emit.manifestName ≠ emit.registrationDirectory := by
  intro hname
  rw [Settings.Emit.check] at haccepted
  split at haccepted
  · cases haccepted
  · rw [if_pos hname.symm] at haccepted
    cases haccepted

/-- With accepted settings the manifest and the directory of the registrations have different paths,
unless their names are two spellings of one path, which names of one segment never are. With two
spellings every emission fails. -/
theorem manifest_apart_iff {emit : Settings.Emit} (haccepted : emit.check = .ok ()) :
    (Path.same emit.manifestPath emit.registrationPath = false ↔
      ¬ Respelled emit.outputDirectory emit.manifestName emit.registrationDirectory) ∧
    (Path.IsName emit.manifestName → Path.IsName emit.registrationDirectory →
      Path.same emit.manifestPath emit.registrationPath = false) ∧
    (Path.same emit.manifestPath emit.registrationPath = true →
      ∀ (order : List Identity) (w : Workspace Tree), w.disk.Proper →
        ∃ e, (toDisk Tree.disk emit order w).1 = .error e) := by
  have hne := names_ne_of_accepted haccepted
  have hmanifest : Path.parts emit.manifestPath =
      Path.partsBelow emit.outputDirectory emit.manifestName := Path.parts_join_eq _ _
  have hregistration : Path.parts emit.registrationPath =
      Path.partsBelow emit.outputDirectory emit.registrationDirectory := Path.parts_join_eq _ _
  have hapart : Path.same emit.manifestPath emit.registrationPath = false ↔
      ¬ Respelled emit.outputDirectory emit.manifestName emit.registrationDirectory := by
    rw [Path.same, decide_eq_false_iff_not, hmanifest, hregistration, not_iff_not]
    exact ⟨fun h => ⟨hne, h⟩, fun h => h.parts_eq⟩
  refine ⟨hapart, fun hm hr => ?_, fun hsame order w hproper => ?_⟩
  · rw [hapart]
    intro hrespelled
    have hparts := hrespelled.parts_eq
    rw [hm.partsBelow_eq, hr.partsBelow_eq, List.append_right_inj, List.singleton_inj] at hparts
    exact hne (Path.partOf_injective hparts)
  · rw [Path.same, decide_eq_true_eq] at hsame
    exact toDisk_of_collision hsame order hproper

namespace Sample

/-- Names of one segment. -/
def named : Settings.Emit :=
  { outputDirectory := "out", manifestName := "manifest", registrationDirectory := "artifacts" }

/-- A name, and the same name with a slash behind it. -/
def slashed : Settings.Emit :=
  { outputDirectory := "out", manifestName := "artifacts", registrationDirectory := "artifacts/" }

theorem manifest_apart_iff_of_named :
    named.check = .ok () ∧ Path.IsName "manifest" ∧ Path.IsName "artifacts" ∧
      Path.same "out/manifest" "out/artifacts" = false := by
  have haccepted : named.check = .ok () := by rfl
  have hmanifest : Path.IsName "manifest" := ⟨by decide, by decide, by decide⟩
  have hregistrations : Path.IsName "artifacts" := ⟨by decide, by decide, by decide⟩
  have hpaths : named.manifestPath = "out/manifest" ∧ named.registrationPath = "out/artifacts" := by
    decide
  have hapart := (manifest_apart_iff haccepted).2.1 hmanifest hregistrations
  rw [hpaths.1, hpaths.2] at hapart
  exact ⟨haccepted, hmanifest, hregistrations, hapart⟩

/-- The two names are accepted, though both lead to `out/artifacts`. -/
theorem accepts_slashed :
    slashed.check = .ok () ∧ Path.same slashed.manifestPath slashed.registrationPath = true := by
  exact ⟨by rfl, by decide⟩

end Sample

end Emission

end ComponentWiring
