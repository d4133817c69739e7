import ComponentWiring.Proofs.RegistrationPlaces

/-! # Names and paths of registrations

The name of a registration is made of plain characters only and tells the name of its component, so
the path of a registration is the directory of the registrations with one more name.

* `File.Path.parts_join`: a name behind a path is one more part.
* `Artifact.Escaped`: texts of plain characters in which every percent sign has two digits.
* `Artifact.Identifies`: what the name and the path of a registration tell.
* `Artifact.identifies_component`: they tell the component, whatever its name is.
-/

namespace ComponentWiring
set_option autoImplicit false

namespace File.Path

section Parts
variable {path : String}

theorem parts_of_absolute (h : isAbsolute path = true) :
    parts path = .root :: inner (segments path) := if_pos h

theorem parts_of_here (h : isAbsolute path = false) {rest : List String}
    (hpath : segments path = "." :: rest) : parts path = .here :: inner rest := by
  rw [parts, if_neg (by simp [h]), hpath]
  rfl

theorem parts_of_relative (h : isAbsolute path = false) (hpath : (segments path).head? ≠ some ".") :
    parts path = inner (segments path) := by
  rw [parts, if_neg (by simp [h])]
  split
  · next heq => simp [heq] at hpath
  · rfl

end Parts

theorem inner_append (front back : List String) :
    inner (front ++ back) = inner front ++ inner back := by
  simp [inner]

theorem segments_ne_nil {path : String} (hrelative : isAbsolute path = false) (hne : path ≠ "") :
    segments path ≠ [] := by
  have hlist : path.toList ≠ [] := by simpa using hne
  obtain ⟨c, cs, hpath⟩ := List.exists_cons_of_ne_nil hlist
  have hc : c ≠ '/' := by
    rintro rfl
    simp [isAbsolute, hpath] at hrelative
  obtain ⟨part, parts, -, hparts⟩ := Text.exists_splitOn_cons hc cs
  rw [segments, hpath, hparts]
  simp

/-- The parts of a path behind a directory. A point at its start says nothing there. -/
theorem parts_join_of_ne {base path : String} (hbase : base ≠ "")
    (hrelative : isAbsolute path = false) :
    parts (join base path) = parts base ++ inner (segments path) := by
  have hsegments := segments_join hrelative base
  have habsolute := isAbsolute_join hrelative base
  cases hroot : isAbsolute base with
  | true =>
    rw [parts_of_absolute (habsolute.trans hroot), parts_of_absolute hroot, hsegments, inner_append,
      List.cons_append]
  | false =>
    obtain ⟨first, rest, hfirst⟩ := List.exists_cons_of_ne_nil (segments_ne_nil hroot hbase)
    rw [hfirst, List.cons_append] at hsegments
    by_cases hpoint : first = "."
    · rw [hpoint] at hfirst hsegments
      rw [parts_of_here (habsolute.trans hroot) hsegments, parts_of_here hroot hfirst, inner_append,
        List.cons_append]
    · rw [parts_of_relative (habsolute.trans hroot) (by simpa [hsegments] using hpoint),
        parts_of_relative hroot (by simpa [hfirst] using hpoint), hsegments, hfirst,
        ← List.cons_append, inner_append]

theorem parts_empty : parts "" = [] := by decide

/-- A name behind a path is one more part of it. -/
theorem parts_join {path name : String} (hrelative : isAbsolute path = false)
    (hpath : segments path = [name]) (hhere : name ≠ ".") (hup : name ≠ "..") (base : String) :
    parts (join base path) = parts base ++ [.name name] := by
  have hlast : inner [name] = [.name name] := by simp [inner, hhere, hup]
  by_cases hbase : base = ""
  · have hjoin : join "" path = path := by
      rw [join, if_neg (by simp [hrelative]), if_pos (.inl rfl)]
      simp
    rw [hbase, hjoin, parts_of_relative hrelative (by simpa [hpath] using hhere), hpath, hlast,
      parts_empty, List.nil_append]
  · rw [parts_join_of_ne hbase hrelative, hpath, hlast]

end File.Path

namespace Artifact

/-! ## The characters of a stem -/

def hexDigits : List Char := "0123456789ABCDEF".toList

/-- Characters that stand for themselves, and percent signs with two digits. -/
inductive Escaped : List Char → Prop
  | nil : Escaped []
  | safe {c : Char} {cs : List Char} (hc : isSafe c = true) (h : Escaped cs) : Escaped (c :: cs)
  | percent {x y : Char} {cs : List Char} (hx : x ∈ hexDigits) (hy : y ∈ hexDigits)
      (h : Escaped cs) : Escaped ('%' :: x :: y :: cs)

theorem Escaped.append {cs ds : List Char} (hcs : Escaped cs) (hds : Escaped ds) :
    Escaped (cs ++ ds) := by
  induction hcs with
  | nil => exact hds
  | safe hc _ ih => exact .safe hc ih
  | percent hx hy _ ih => exact .percent hx hy ih

theorem escaped_flatMap {α : Type} {f : α → List Char} (h : ∀ x, Escaped (f x)) (xs : List α) :
    Escaped (xs.flatMap f) := by
  induction xs with
  | nil => exact .nil
  | cons x xs ih =>
    rw [List.flatMap_cons]
    exact (h x).append ih

theorem hexUpper_mem_hexDigits (n : Nat) : Toml.hexUpper n ∈ hexDigits := by
  have hdigit : ∀ k < 16, (Nat.digitChar k).toUpper ∈ hexDigits := by decide
  exact hdigit _ (Nat.mod_lt n (by decide))

theorem escaped_stemChar (c : Char) : Escaped (stemChar c) := by
  rw [stemChar]
  split
  · next hsafe => exact .safe hsafe .nil
  · refine escaped_flatMap (fun byte => ?_) _
    exact .percent (hexUpper_mem_hexDigits _) (hexUpper_mem_hexDigits _) .nil

theorem escaped_stem (a : Identity) : Escaped (stem a).toList := by
  rw [stem, String.toList_ofList]
  exact escaped_flatMap escaped_stemChar _

/-- An ASCII letter or digit, or one of five marks. -/
def IsPlain (c : Char) : Prop := c.isAlphanum = true ∨ c ∈ ['.', '_', '-', '$', '%']

theorem isPlain_of_isSafe {c : Char} (h : isSafe c = true) : IsPlain c := by
  have hvalue : c.isAlphanum = true ↔
      ('A' ≤ c ∧ c ≤ 'Z') ∨ ('a' ≤ c ∧ c ≤ 'z') ∨ ('0' ≤ c ∧ c ≤ '9') := by
    delta Char.isAlphanum Char.isAlpha Char.isUpper Char.isLower Char.isDigit
    simp only [Bool.or_eq_true, Bool.and_eq_true, decide_eq_true_eq, ge_iff_le, or_assoc]
    rfl
  simp only [isSafe, Bool.or_eq_true, Bool.and_eq_true, decide_eq_true_eq] at h
  rw [IsPlain, hvalue]
  rcases h with (((((h | h) | h) | rfl) | rfl) | rfl) | rfl
  · exact Or.inl (Or.inl h)
  · exact Or.inl (Or.inr (Or.inl h))
  · exact Or.inl (Or.inr (Or.inr h))
  all_goals exact Or.inr (by decide)

theorem Escaped.isPlain {cs : List Char} (h : Escaped cs) : ∀ c ∈ cs, IsPlain c := by
  have hall : hexDigits.all (·.isAlphanum) = true := by decide
  have hdigit := List.all_eq_true.1 hall
  induction h with
  | nil => simp
  | safe hc _ ih => exact List.forall_mem_cons.2 ⟨isPlain_of_isSafe hc, ih⟩
  | percent hx hy _ ih =>
    rw [List.forall_mem_cons, List.forall_mem_cons, List.forall_mem_cons]
    exact ⟨Or.inr (by decide), Or.inl (hdigit _ hx), Or.inl (hdigit _ hy), ih⟩

/-! ## Reading names back -/

theorem fromUTF8?_unescape_stem (a : Identity) :
    String.fromUTF8? (unescape (stem a).toList).toByteArray = some a.name := by
  have hbytes : (unescape (stem a).toList).toByteArray = a.name.toByteArray := by
    apply ByteArray.ext
    rw [List.data_toByteArray, unescape_stem]
    simp
  rw [hbytes, String.fromUTF8?, dif_pos a.name.isValidUTF8]
  rfl

theorem stem_ne_empty (a : Identity) : stem a ≠ "" := by
  intro h
  have hname := fromUTF8?_unescape_stem a
  have hempty : String.fromUTF8? (unescape "".toList).toByteArray = some "" := by rfl
  rw [h, hempty] at hname
  exact a.name_ne (Option.some.inj hname).symm

theorem parts_registrationPath (emit : Settings.Emit) (a : Identity) :
    File.Path.parts (registrationPath emit a) =
      File.Path.parts emit.registrationPath ++ [.name (fileName a)] :=
  File.Path.parts_join (isAbsolute_fileName a) (segments_fileName a) (fileName_ne_here a)
    (fileName_ne_up a) _

/-- What the name and the path of a registration tell of its component. -/
structure Identifies (emit : Settings.Emit) (a : Identity) : Prop where
  decoded : String.fromUTF8? (unescape (stem a).toList).toByteArray = some a.name
  escaped : Escaped (stem a).toList
  isPlain : ∀ c ∈ (stem a).toList, IsPlain c
  stem_ne : stem a ≠ ""
  parts : File.Path.parts (registrationPath emit a) =
    File.Path.parts emit.registrationPath ++ [.name (stem a ++ ".registration")]
  parts_eq_iff : ∀ b, File.Path.parts (registrationPath emit a) =
    File.Path.parts (registrationPath emit b) ↔ a = b

/-- The name of a registration, read back, is the one of its component, and its path is the
directory of the registrations with one more name, which no other component has. -/
theorem identifies_component (emit : Settings.Emit) (a : Identity) : Identifies emit a where
  decoded := fromUTF8?_unescape_stem a
  escaped := escaped_stem a
  isPlain := (escaped_stem a).isPlain
  stem_ne := stem_ne_empty a
  parts := parts_registrationPath emit a
  parts_eq_iff := by
    intro b
    rw [parts_registrationPath, parts_registrationPath, List.append_right_inj, List.singleton_inj,
      File.Part.name.injEq]
    constructor
    · exact fileName_injective
    · rintro rfl
      rfl

example : (stem ⟨"../../x", by decide, by decide⟩) = "..%2F..%2Fx" := by decide

end Artifact

end ComponentWiring
