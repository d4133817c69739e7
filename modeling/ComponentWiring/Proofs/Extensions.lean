import ComponentWiring.Proofs.DocumentScans
import ComponentWiring.Proofs.RegistrationNames

/-! # Files that carry the extension

The extension of a name has no point in it, so a file that carries an accepted extension is a
document just if there is none in the extension. With a point in it nothing is found in directories.

* `Path.extensionOf?_eq_some_iff`: the extension of a name.
* `Scan.Carries`: names that end in a point and an extension.
* `Scan.discover_carriers`: which files that carry the extension are found.
* `Scan.Sample.skips_dotted`: an accepted extension whose files are not found.
-/

namespace ComponentWiring
set_option autoImplicit false

namespace File.Path
open Text

/-- A name has an extension just if it is something, a point, and the extension, without a further
point. -/
theorem extensionOf?_eq_some_iff {name extension : String} :
    extensionOf? name = some extension ↔
      '.' ∉ extension.toList ∧ ∃ stem, stem ≠ "" ∧ name = stem ++ "." ++ extension := by
  rw [extensionOf?]
  constructor
  · intro h
    rcases exists_last '.' name.toList with hnone | ⟨front, last, hname, hlast⟩
    · rw [afterLast_of_notMem hnone, if_neg (Nat.not_lt.2 (Nat.le_succ _))] at h
      cases h
    · rw [hname, afterLast_append_cons front hlast] at h
      obtain ⟨hlonger, rfl⟩ : last.length + 1 < (front ++ '.' :: last).length ∧
          String.ofList last = extension := by simpa using h
      refine ⟨by rwa [String.toList_ofList], String.ofList front, ?_, ?_⟩
      · rw [ne_eq, String.ofList_eq_empty_iff]
        rintro rfl
        simp at hlonger
      · apply String.toList_inj.1
        simp [hname]
  · rintro ⟨hpoint, stem, hstem, rfl⟩
    have hchars : (stem ++ "." ++ extension).toList = stem.toList ++ '.' :: extension.toList := by
      simp
    have hlength : 0 < stem.toList.length := by
      rw [List.length_pos_iff]
      simpa using hstem
    rw [hchars, afterLast_append_cons _ hpoint, if_pos, String.ofList_toList]
    rw [List.length_append, List.length_cons]
    omega

end File.Path

namespace Scan
open File

/-- A file name that is something, a point, and an extension. -/
structure Carries (extension name : String) : Prop where
  exists_stem : ∃ stem, stem ≠ "" ∧ name = stem ++ "." ++ extension
  noSlash : '/' ∉ name.toList

section Carries
variable {tree : Tree} {scan : Settings.Scan} {extension name input : String} {place : Place}

theorem extension_ne_empty (haccepted : scan.check = .ok ()) : scan.extension ≠ "" := by
  intro hempty
  have hblank : Text.trim scan.extension = "" := by
    rw [hempty]
    rfl
  rw [Settings.Scan.check, if_pos hblank] at haccepted
  cases haccepted

theorem Carries.two_lt (h : Carries extension name) (hextension : extension ≠ "") :
    2 < name.length := by
  obtain ⟨stem, hstem, rfl⟩ := h.exists_stem
  have hfront : stem.length ≠ 0 := by simpa using hstem
  have hback : extension.length ≠ 0 := by simpa using hextension
  have hpoint : ".".length = 1 := by decide
  rw [String.length_append, String.length_append]
  omega

/-- What a directory leads to under a name that carries an extension has this name. -/
theorem Carries.fileName?_join (h : Carries extension name) (hextension : extension ≠ "")
    (input : String) : Path.fileName? (Path.join input name) = some name := by
  have hlong := h.two_lt hextension
  have hne : ∀ short : String, short.length ≤ 2 → name ≠ short := by
    rintro short hshort rfl
    omega
  have hrelative : Path.isAbsolute name = false := by
    rw [Path.isAbsolute, decide_eq_false_iff_not]
    exact fun hhead => h.noSlash (List.mem_of_mem_head? hhead)
  have hsegments : Path.segments name = [name] :=
    Path.segments_eq_singleton (hne "" (by decide)) h.noSlash
  rw [Path.fileName?, Path.parts_join hrelative hsegments (hne "." (by decide))
    (hne ".." (by decide)), List.getLast?_concat]

theorem Carries.document (h : Carries extension name) (hextension : extension ≠ "")
    (hpoint : '.' ∉ extension.toList) (hfind : tree.find input = .ok (place, .directory))
    {bytes : List UInt8} (hfile : tree.node? (place ++ [name]) = some (.file bytes)) :
    DocumentOf tree extension input (Path.join input name) := by
  have hpath : Tree.pathBelow input [name] = Path.join input name := by
    simp [Tree.pathBelow, Text.join]
  have hfound : Path.extension? (Path.join input name) = some extension := by
    rw [Path.extension?, h.fileName?_join hextension]
    exact Path.extensionOf?_eq_some_iff.2 ⟨hpoint, h.exists_stem⟩
  rw [← hpath] at hfound ⊢
  exact .below hfind (.file hfile) hfound

/-- With a point in the extension only inputs are documents. -/
theorem DocumentOf.eq_input (h : DocumentOf tree extension input name)
    (hpoint : '.' ∈ extension.toList) : name = input := by
  cases h with
  | file => rfl
  | below _ _ hextension =>
    rw [Path.extension?, Option.bind_eq_some_iff] at hextension
    obtain ⟨last, -, hlast⟩ := hextension
    exact absurd hpoint (Path.extensionOf?_eq_some_iff.1 hlast).1

theorem exists_discover (hinputs : ∀ input ∈ scan.inputs,
    tree.isFile input = true ∨ tree.isDirectory input = true) :
    ∃ found, (discover tree scan).value = .ok found := by
  obtain ⟨found, hfound⟩ : ∃ found,
      documentsOfAll tree (fun _ => none) scan.extension scan.inputs = .ok found := by
    refine exists_documentsOfAll_iff.2 fun input hinput => ?_
    rw [documentsOf]
    rcases hinputs input hinput with hfile | hdirectory
    · exact ⟨_, if_pos hfile⟩
    · have hlisted : (tree.directoriesUnder input).findSome? (fun _ => (none : Option String)) =
          none := List.findSome?_eq_none_iff.2 fun _ _ => rfl
      rw [if_pos hdirectory, hlisted]
      split <;> exact ⟨_, rfl⟩
  exact ⟨_, discover_ok_iff.2 ⟨found, hfound, rfl⟩⟩

/-- A scan with an accepted extension whose inputs are all there finds each file in its input
directories that carries the extension, unless there is a point in the extension. Then it finds
nothing but inputs. -/
theorem discover_carriers (hsound : tree.Sound) (haccepted : scan.check = .ok ())
    (hinputs : ∀ input ∈ scan.inputs, tree.isFile input = true ∨ tree.isDirectory input = true) :
    ∃ found, (discover tree scan).value = .ok found ∧
      ('.' ∉ scan.extension.toList →
        ∀ input ∈ scan.inputs, ∀ place, tree.find input = .ok (place, .directory) →
          ∀ name, Carries scan.extension name →
            ∀ bytes, tree.node? (place ++ [name]) = some (.file bytes) →
              Path.parts (Path.join input name) ∈ found.map Path.parts) ∧
      ('.' ∈ scan.extension.toList → ∀ path ∈ found, path ∈ scan.inputs) := by
  obtain ⟨found, hfound⟩ := exists_discover hinputs
  have hdelivers := (delivers_of_discover hsound hfound).1
  refine ⟨found, hfound, ?_, ?_⟩
  · intro hpoint input hinput place hfind name hname bytes hfile
    exact hdelivers.complete _
      ⟨input, hinput, hname.document (extension_ne_empty haccepted) hpoint hfind hfile⟩
  · intro hpoint path hpath
    obtain ⟨input, hinput, hdocument⟩ := hdelivers.isDocument path hpath
    rw [hdocument.eq_input hpoint]
    exact hinput

end Carries

namespace Sample

/-- A directory with two documents, the one's extension with a point in it. -/
def drawer : Tree :=
  ⟨[(["d"], .directory), (["d", "a.decl"], .file []), (["d", "a.decl.toml"], .file [])], []⟩

def plain : Settings.Scan := { inputs := ["d"], extension := "decl" }

def dotted : Settings.Scan := { inputs := ["d"], extension := "decl.toml" }

theorem sound_drawer : drawer.Sound := ⟨by decide, by decide⟩

theorem find_drawer : drawer.find "d" = .ok (["d"], .directory) := by
  have hsegments : Tree.closedSegments "d" = ["d"] := by decide
  have hname : Tree.Names "d" := ⟨by decide, by decide, by decide⟩
  rw [Tree.find_eq_ok_iff, hsegments]
  exact ⟨⟨by decide, by decide, by decide⟩,
    .name rfl hname rfl (fun _ => Node.noConfusion) (.there _ rfl)⟩

theorem isDirectory_drawer : drawer.isDirectory "d" = true := by
  rw [Tree.isDirectory, find_drawer]

theorem carries_plain : Carries "decl" "a.decl" := ⟨⟨"a", by decide, by decide⟩, by decide⟩

theorem carries_dotted : Carries "decl.toml" "a.decl.toml" :=
  ⟨⟨"a", by decide, by decide⟩, by decide⟩

theorem discover_carriers_of_plain :
    drawer.Sound ∧ plain.check = .ok () ∧
      (∀ input ∈ plain.inputs, drawer.isFile input = true ∨ drawer.isDirectory input = true) ∧
      Carries "decl" "a.decl" ∧
      ∃ found, (discover drawer plain).value = .ok found ∧
        [.name "d", .name "a.decl"] ∈ found.map Path.parts := by
  have haccepted : plain.check = .ok () := by rfl
  have hinputs : ∀ input ∈ plain.inputs,
      drawer.isFile input = true ∨ drawer.isDirectory input = true := by
    simpa [plain] using Or.inr isDirectory_drawer
  obtain ⟨found, hfound, hplain, -⟩ := discover_carriers sound_drawer haccepted hinputs
  exact ⟨sound_drawer, haccepted, hinputs, carries_plain, found, hfound,
    hplain (by decide) "d" (by decide) _ find_drawer _ carries_plain [] rfl⟩

/-- The extension `decl.toml` is accepted, and a scan finds no file that carries it. -/
theorem skips_dotted :
    dotted.check = .ok () ∧ Carries dotted.extension "a.decl.toml" ∧
      drawer.find "d" = .ok (["d"], .directory) ∧
      drawer.node? (["d"] ++ ["a.decl.toml"]) = some (.file []) ∧
      (discover drawer dotted).value = .ok [] := by
  have hunder : (drawer.filesUnder "d").filter
      (fun path => Path.extension? path = some "decl.toml") = [] := by
    rw [Tree.filesUnder, find_drawer]
    decide
  have hfound : documentsOfAll drawer (fun _ => none) "decl.toml" ["d"] = .ok [] := by
    rw [documentsOfAll, documentsOf_of_directory find_drawer fun _ _ => rfl, hunder]
    rfl
  have hnone : [] = arranged [] := by simp [arranged, distinct]
  exact ⟨by rfl, carries_dotted, find_drawer, rfl, discover_ok_iff.2 ⟨[], hfound, hnone⟩⟩

end Sample

end Scan

end ComponentWiring
