import ComponentWiring.Emission
import ComponentWiring.Proofs.TreeGrowth

/-! # The places of registrations

In a tree without links the place of a path is told by its segments alone. A registration stands
directly below the directory of the registrations, under a name that no other one has.

* `Path.segments_join`: the segments of a path below another one.
* `Tree.aim_of_linkless`: the place of a path in a tree without links.
* `Artifact.slash_notMem_fileName`: no slash stands in the name of a registration.
* `Artifact.aimOf_registrationPath_eq`, `Artifact.aimOf_registrationPath`: the place of a
  registration.
* `Artifact.unescape`, `Artifact.unescape_stem`: the name of a component, read from the name of its
  registration.
* `Artifact.fileName_injective`: different components have differently named registrations.
-/

namespace ComponentWiring
set_option autoImplicit false

/-! ## Segments -/

namespace File.Path

theorem segments_append_slash (left right : String) :
    segments (left ++ "/" ++ right) = segments left ++ segments right := by
  have hchars : (left ++ "/" ++ right).toList = left.toList ++ '/' :: right.toList := by simp
  rw [segments, hchars, Text.splitOn_append_sep, List.map_append, List.filter_append]
  rfl

theorem segments_empty : segments "" = [] := by decide

/-- The segments of a path below another one. -/
theorem segments_join {path : String} (h : isAbsolute path = false) (base : String) :
    segments (join base path) = segments base ++ segments path := by
  rw [join, if_neg (by simp [h])]
  split
  · next hbase =>
    rcases hbase with rfl | hslash
    · rw [segments_empty]
      simp
    · obtain ⟨front, hfront⟩ : ∃ front, base.toList = front ++ ['/'] := by
        exact ⟨_, (List.dropLast_append_getLast? _ hslash).symm⟩
      have hbase : base = String.ofList front ++ "/" ++ "" := by
        apply String.toList_inj.1
        simp [hfront]
      have hjoined : base ++ path = String.ofList front ++ "/" ++ path := by
        rw [hbase]
        simp
      rw [hjoined, segments_append_slash, hbase, segments_append_slash, segments_empty,
        List.append_nil]
  · exact segments_append_slash base path

theorem isAbsolute_join {path : String} (h : isAbsolute path = false) (base : String) :
    isAbsolute (join base path) = isAbsolute base := by
  rw [join, if_neg (by simp [h])]
  have hfront : ∀ rest : String, base ≠ "" → isAbsolute (base ++ rest) = isAbsolute base := by
    intro rest hne
    have hlist : base.toList ≠ [] := by simpa using hne
    obtain ⟨c, cs, hcs⟩ := List.exists_cons_of_ne_nil hlist
    simp [isAbsolute, hcs]
  by_cases hbase : base = ""
  · subst hbase
    simpa [isAbsolute] using h
  · split
    · exact hfront path hbase
    · rw [String.append_assoc]
      exact hfront _ hbase

theorem segments_eq_singleton {name : String} (hne : name ≠ "") (h : '/' ∉ name.toList) :
    segments name = [name] := by
  rw [segments, Text.splitOn_of_notMem _ _ h]
  simp [hne]

end File.Path

/-! ## Trees without links -/

namespace File.Tree

/-- The place to which a segment leads from a place. -/
def stepTo (place : Place) (segment : String) : Place :=
  if segment = "." then place else if segment = ".." then place.dropLast else place ++ [segment]

/-- The place of a path in a tree without links. -/
theorem aim_of_linkless {tree : Tree} (h : ∀ place text, tree.node? place ≠ some (.link text))
    (links : Nat) (place : Place) (segments : List String) :
    tree.aim links place segments = some (segments.foldl stepTo place) := by
  induction segments generalizing place with
  | nil => rw [aim]; rfl
  | cons segment rest ih =>
    rw [List.foldl_cons, ← ih, stepTo]
    by_cases hhere : segment = "."
    · rw [aim, if_pos hhere, if_pos hhere]
    · by_cases hup : segment = ".."
      · rw [aim, if_neg hhere, if_pos hup, if_neg hhere, if_pos hup]
      · rw [aim_name hhere hup (h _), if_neg hhere, if_neg hup]

theorem aimOf_of_linkless {tree : Tree} (h : ∀ place text, tree.node? place ≠ some (.link text))
    (hroot : tree.workingDirectory = []) (path : String) :
    tree.aimOf path = some ((Path.segments path).foldl stepTo []) := by
  rw [aimOf, aim_of_linkless h, base, hroot, ite_self]

/-- A name at the end of a path stands below what the path leads to, unless it is the name of a
link. -/
theorem aim_concat {tree : Tree} {name : String} (hhere : name ≠ ".") (hup : name ≠ "..")
    (links : Nat) (place : Place) (segments : List String)
    (h : ∀ directory, tree.aim links place segments = some directory →
      ∀ text, tree.node? (directory ++ [name]) ≠ some (.link text)) :
    tree.aim links place (segments ++ [name]) =
      (tree.aim links place segments).map (· ++ [name]) := by
  fun_induction aim tree links place segments with
  | case1 links place =>
    rw [List.nil_append, aim_name hhere hup (h place rfl), aim]
    rfl
  | case2 links place rest ih => rw [List.cons_append, aim, if_pos rfl, ih h]
  | case3 links place rest _ ih =>
    rw [List.cons_append, aim, if_neg (by decide), if_pos rfl, ih h]
  | case4 place segment rest hhere' hup' text hlink =>
    rw [List.cons_append, aim, if_neg hhere', if_neg hup', hlink]
    rfl
  | case5 place segment rest hhere' hup' text hlink links ih =>
    rw [List.append_assoc] at ih
    rw [List.cons_append, aim, if_neg hhere', if_neg hup', hlink]
    exact ih h
  | case6 links place segment rest hhere' hup' hlink ih =>
    rw [List.cons_append, aim_name hhere' hup' hlink, ih h]

end File.Tree

/-! ## Names of registrations -/

namespace Artifact

theorem hexUpper_ne_slash (n : Nat) : Toml.hexUpper n ≠ '/' := by
  have hdigit : ∀ k < 16, (Nat.digitChar k).toUpper ≠ '/' := by decide
  exact hdigit _ (Nat.mod_lt n (by decide))

theorem slash_notMem_stemChar (c : Char) : '/' ∉ stemChar c := by
  rw [stemChar]
  split
  · next hsafe =>
    intro hmem
    rw [List.mem_singleton] at hmem
    subst hmem
    exact absurd hsafe (by decide)
  · intro hmem
    obtain ⟨byte, -, hbyte⟩ := List.mem_flatMap.1 hmem
    simp only [percentByte, List.mem_cons, List.not_mem_nil, or_false] at hbyte
    rcases hbyte with hbyte | hbyte | hbyte
    · exact absurd hbyte (by decide)
    · exact hexUpper_ne_slash _ hbyte.symm
    · exact hexUpper_ne_slash _ hbyte.symm

/-- The name of a component's registration. -/
def fileName (a : Identity) : String := stem a ++ ".registration"

theorem slash_notMem_fileName (a : Identity) : '/' ∉ (fileName a).toList := by
  have hstem : '/' ∉ a.name.toList.flatMap stemChar := by
    intro hmem
    obtain ⟨c, -, hc⟩ := List.mem_flatMap.1 hmem
    exact slash_notMem_stemChar c hc
  simp only [fileName, stem, String.toList_append, String.toList_ofList, List.mem_append, not_or]
  exact ⟨hstem, by decide⟩

theorem fileName_ne_of_length_lt {s : String} (h : s.length < 13) (a : Identity) :
    fileName a ≠ s := by
  intro heq
  have hlength : (fileName a).length = (stem a).length + ".registration".length :=
    String.length_append _ _
  have hending : ".registration".length = 13 := by decide
  rw [heq] at hlength
  omega

theorem segments_fileName (a : Identity) : File.Path.segments (fileName a) = [fileName a] :=
  File.Path.segments_eq_singleton (fileName_ne_of_length_lt (by decide) a) (slash_notMem_fileName a)

theorem isAbsolute_fileName (a : Identity) : File.Path.isAbsolute (fileName a) = false := by
  have hslash := slash_notMem_fileName a
  rw [File.Path.isAbsolute, decide_eq_false_iff_not]
  intro hhead
  exact hslash (List.mem_of_mem_head? hhead)

theorem fileName_ne_here (a : Identity) : fileName a ≠ "." := fileName_ne_of_length_lt (by decide) a

theorem fileName_ne_up (a : Identity) : fileName a ≠ ".." := fileName_ne_of_length_lt (by decide) a

/-- A registration stands directly below the directory of the registrations, under its own name,
unless there is a link of this name. -/
theorem aimOf_registrationPath_eq {tree : File.Tree} (emit : Settings.Emit) (a : Identity)
    (h : ∀ directory, tree.aimOf emit.registrationPath = some directory →
      ∀ text, tree.node? (directory ++ [fileName a]) ≠ some (.link text)) :
    tree.aimOf (registrationPath emit a) =
      (tree.aimOf emit.registrationPath).map (· ++ [fileName a]) := by
  have hrelative := isAbsolute_fileName a
  have hpath : registrationPath emit a = File.Path.join emit.registrationPath (fileName a) := rfl
  have hbase : tree.base (registrationPath emit a) = tree.base emit.registrationPath := by
    rw [File.Tree.base, File.Tree.base, hpath, File.Path.isAbsolute_join hrelative]
  rw [File.Tree.aimOf, hbase, hpath, File.Path.segments_join hrelative, segments_fileName]
  exact File.Tree.aim_concat (fileName_ne_here a) (fileName_ne_up a) _ _ _ h

theorem aimOf_registrationPath {tree : File.Tree}
    (h : ∀ place text, tree.node? place ≠ some (.link text)) (emit : Settings.Emit)
    (a : Identity) :
    ∃ directory, tree.aimOf emit.registrationPath = some directory ∧
      tree.aimOf (registrationPath emit a) = some (directory ++ [fileName a]) := by
  have hdirectory : tree.aimOf emit.registrationPath = some _ := File.Tree.aim_of_linkless h _ _ _
  refine ⟨_, hdirectory, ?_⟩
  rw [aimOf_registrationPath_eq emit a fun _ _ text => h _ text, hdirectory]
  rfl

end Artifact

/-! ## Names read back -/

namespace Artifact

/-- The number that a hexadecimal digit stands for. -/
def hexValue (c : Char) : Nat := if c.toNat < 58 then c.toNat - 48 else c.toNat - 55

/-- The bytes that a file name stands for: a percent sign with two digits is the byte they name. -/
def unescape : List Char → List UInt8
  | '%' :: x :: y :: rest => (16 * hexValue x + hexValue y).toUInt8 :: unescape rest
  | c :: rest => c.val.toUInt8 :: unescape rest
  | [] => []

theorem unescape_cons {c : Char} (hc : c ≠ '%') (cs : List Char) :
    unescape (c :: cs) = c.val.toUInt8 :: unescape cs := by
  rw [unescape]
  rintro x y rest rfl
  exact absurd rfl hc

theorem hexValue_hexUpper (n : Nat) : hexValue (Toml.hexUpper n) = n % 16 := by
  have hdigit : ∀ k < 16, hexValue (Nat.digitChar k).toUpper = k := by decide
  exact hdigit _ (Nat.mod_lt n (by decide))

theorem unescape_percentByte (byte : UInt8) (cs : List Char) :
    unescape (percentByte byte ++ cs) = byte :: unescape cs := by
  have hlt : byte.toNat < 256 := byte.toNat_lt
  have hbyte : 16 * (byte.toNat / 16 % 16) + byte.toNat % 16 = byte.toNat := by omega
  rw [percentByte, List.cons_append, List.cons_append, List.cons_append, List.nil_append, unescape,
    hexValue_hexUpper, hexValue_hexUpper, hbyte]
  simp

theorem unescape_percentBytes (bytes : List UInt8) (cs : List Char) :
    unescape (bytes.flatMap percentByte ++ cs) = bytes ++ unescape cs := by
  induction bytes with
  | nil => rfl
  | cons byte bytes ih =>
    rw [List.flatMap_cons, List.append_assoc, unescape_percentByte, ih, List.cons_append]

theorem le_of_isSafe {c : Char} (h : isSafe c = true) : c ≤ '\x7f' := by
  simp only [isSafe, Bool.or_eq_true, Bool.and_eq_true, decide_eq_true_eq] at h
  rcases h with (((((⟨-, h⟩ | ⟨-, h⟩) | ⟨-, h⟩) | rfl) | rfl) | rfl) | rfl
  · exact Char.le_trans h (by decide)
  · exact Char.le_trans h (by decide)
  · exact Char.le_trans h (by decide)
  all_goals decide

/-- What a file name holds for a character stands for the bytes of its encoding. -/
theorem unescape_stemChar (c : Char) (cs : List Char) :
    unescape (stemChar c ++ cs) = String.utf8EncodeChar c ++ unescape cs := by
  rw [stemChar]
  split
  · next hsafe =>
    have hne : c ≠ '%' := by
      rintro rfl
      exact absurd hsafe (by decide)
    have hsize : c.utf8Size = 1 := if_pos (le_of_isSafe hsafe)
    rw [String.utf8EncodeChar_eq_singleton hsize]
    exact unescape_cons hne cs
  · exact unescape_percentBytes _ cs

/-- A stem stands for the encoding of the name. -/
theorem unescape_stem (a : Identity) : unescape (stem a).toList = a.name.toUTF8.data.toList := by
  have hall : ∀ cs : List Char,
      unescape (cs.flatMap stemChar) = cs.flatMap String.utf8EncodeChar := by
    intro cs
    induction cs with
    | nil => rfl
    | cons c cs ih => rw [List.flatMap_cons, List.flatMap_cons, unescape_stemChar, ih]
  rw [stem, String.toList_ofList, hall, String.toUTF8, ← String.utf8Encode_toList, List.utf8Encode,
    List.data_toByteArray]

theorem stem_injective {a b : Identity} (h : stem a = stem b) : a = b := by
  have hbytes : a.name.toUTF8.data.toList = b.name.toUTF8.data.toList := by
    rw [← unescape_stem, ← unescape_stem, h]
  have hdata : a.name.toUTF8.data = b.name.toUTF8.data := Array.toList_inj.1 hbytes
  exact Identity.ext_name (String.toByteArray_inj.1 (ByteArray.ext hdata))

/-- Different components have differently named registrations. -/
theorem fileName_injective {a b : Identity} (h : fileName a = fileName b) : a = b := by
  have hlist := congrArg String.toList h
  rw [fileName, fileName, String.toList_append, String.toList_append] at hlist
  exact stem_injective (String.toList_inj.1 (List.append_cancel_right hlist))

end Artifact

end ComponentWiring
