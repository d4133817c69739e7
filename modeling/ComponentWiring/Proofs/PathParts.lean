import ComponentWiring.Proofs.RegistrationNames

/-! # Parts and segments of paths

The parts of a path tell its segments but for the points, and the path made of them says what they
say.

* `Path.segments_of_parts`: the segments of a path without points are told by its parts.
* `Path.Spelled`: what parts of a path are like.
* `Path.segments_ofParts`: the segments of a path that is made of parts.
* `Path.segments_holder`: the path of a directory that holds a path starts as the path does.
-/

namespace ComponentWiring
set_option autoImplicit false

namespace File.Path

/-! ## What the parts of a path tell -/

theorem root_notMem_inner (segments : List String) : Part.root ∉ inner segments := by
  intro hmem
  obtain ⟨s, -, hs⟩ := List.mem_map.1 hmem
  split at hs <;> cases hs

theorem parts_relative {path : String} (h : isAbsolute path = false) :
    parts path = inner (segments path) ∨ parts path = .here :: inner (segments path) := by
  by_cases hpoint : (segments path).head? = some "."
  · obtain ⟨rest, hrest⟩ := List.head?_eq_some_iff.1 hpoint
    have hinner : inner ("." :: rest) = inner rest := by simp [inner]
    exact .inr (by rw [parts_of_here h hrest, hrest, hinner])
  · exact .inl (parts_of_relative h hpoint)

theorem head_parts_eq_root_iff {path : String} :
    (parts path).head? = some .root ↔ isAbsolute path = true := by
  cases h : isAbsolute path with
  | true => simp [parts_of_absolute h]
  | false =>
    rw [iff_false_right Bool.false_ne_true]
    intro hhead
    rcases parts_relative h with hparts | hparts
    · rw [hparts] at hhead
      exact root_notMem_inner _ (List.mem_of_mem_head? hhead)
    · rw [hparts] at hhead
      cases hhead

/-- The segments of a path without points are told by its parts. -/
theorem segments_of_parts (path : String) :
    (segments path).filter (· ≠ ".") =
      ((parts path).filter fun part => part ≠ .root ∧ part ≠ .here).map Part.text := by
  have hinner : ((inner (segments path)).filter fun part => part ≠ .root ∧ part ≠ .here) =
      inner (segments path) := by
    rw [List.filter_eq_self]
    intro part hpart
    obtain ⟨s, -, rfl⟩ := List.mem_map.1 hpart
    split <;> rfl
  have htext : (inner (segments path)).map Part.text = (segments path).filter (· ≠ ".") := by
    rw [inner, List.map_map]
    conv_rhs => rw [← List.map_id ((segments path).filter (· ≠ "."))]
    apply List.map_congr_left
    intro s _
    by_cases hs : s = ".."
    · simp [hs, Part.text]
    · simp [hs, Part.text]
  rw [← htext]
  congr 1
  cases h : isAbsolute path with
  | true => rw [parts_of_absolute h, List.filter_cons_of_neg (by simp), hinner]
  | false =>
    rcases parts_relative h with hparts | hparts
    · rw [hparts, hinner]
    · rw [hparts, List.filter_cons_of_neg (by simp), hinner]

theorem parts_eq_nil_iff {path : String} : parts path = [] ↔ path = "" := by
  constructor
  · intro hparts
    by_contra hne
    cases h : isAbsolute path with
    | true => simp [parts_of_absolute h] at hparts
    | false =>
      obtain ⟨first, rest, hfirst⟩ := List.exists_cons_of_ne_nil (segments_ne_nil h hne)
      by_cases hpoint : first = "."
      · rw [parts_of_here h (hpoint ▸ hfirst)] at hparts
        cases hparts
      · rw [parts_of_relative h (by simpa [hfirst] using hpoint), hfirst] at hparts
        simp [inner, hpoint] at hparts
  · rintro rfl
    exact parts_empty

theorem root_notMem_tail (path : String) : Part.root ∉ (parts path).tail := by
  cases h : isAbsolute path with
  | true =>
    rw [parts_of_absolute h]
    exact root_notMem_inner _
  | false =>
    rcases parts_relative h with hparts | hparts
    · rw [hparts]
      exact fun hmem => root_notMem_inner _ (List.mem_of_mem_tail hmem)
    · rw [hparts]
      exact root_notMem_inner _

/-! ## Paths of parts -/

/-- What every part of a path but the root is like. -/
structure Spelled (part : Part) : Prop where
  ne_empty : part.text ≠ ""
  noSlash : '/' ∉ part.text.toList
  here_iff : part.text = "." ↔ part = .here

theorem mem_segments {path s : String} (h : s ∈ segments path) : s ≠ "" ∧ '/' ∉ s.toList := by
  rw [segments, List.mem_filter, List.mem_map] at h
  obtain ⟨⟨cs, hcs, rfl⟩, hne⟩ := h
  rw [String.toList_ofList]
  exact ⟨by simpa using hne, Text.notMem_of_mem_splitOn hcs⟩

theorem spelled_of_mem_inner {path : String} {part : Part} (h : part ∈ inner (segments path)) :
    Spelled part := by
  obtain ⟨s, hs, rfl⟩ := List.mem_map.1 h
  rw [List.mem_filter] at hs
  obtain ⟨hmem, hhere⟩ := hs
  obtain ⟨hne, hslash⟩ := mem_segments hmem
  split
  · exact ⟨by decide, by decide, by decide⟩
  · exact ⟨hne, hslash, by simpa [Part.text] using hhere⟩

theorem spelled_of_mem_parts {path : String} {part : Part} (h : part ∈ parts path)
    (hroot : part ≠ .root) : Spelled part := by
  cases habsolute : isAbsolute path with
  | true =>
    rw [parts_of_absolute habsolute, List.mem_cons] at h
    exact spelled_of_mem_inner (h.resolve_left hroot)
  | false =>
    rcases parts_relative habsolute with hparts | hparts
    · exact spelled_of_mem_inner (hparts ▸ h)
    · rw [hparts, List.mem_cons] at h
      rcases h with rfl | h
      · exact ⟨by decide, by decide, by decide⟩
      · exact spelled_of_mem_inner h

theorem segments_texts {ps : List Part} (h : ∀ part ∈ ps, Spelled part) :
    segments (Text.join "/" (ps.map (·.text))) = ps.map (·.text) := by
  induction ps with
  | nil => exact segments_empty
  | cons part ps ih =>
    obtain ⟨hpart, hps⟩ := List.forall_mem_cons.1 h
    have hone := segments_eq_singleton hpart.ne_empty hpart.noSlash
    cases ps with
    | nil => simpa [Text.join] using hone
    | cons next ps =>
      have hjoin : Text.join "/" ((part :: next :: ps).map (·.text)) =
          part.text ++ "/" ++ Text.join "/" ((next :: ps).map (·.text)) := by
        simp [Text.join, String.intercalate_cons_cons]
      rw [hjoin, segments_append_slash, hone, ih hps]
      rfl

theorem isAbsolute_texts {ps : List Part} (h : ∀ part ∈ ps, Spelled part) :
    isAbsolute (Text.join "/" (ps.map (·.text))) = false := by
  cases ps with
  | nil => decide
  | cons part ps =>
    have hpart := h part List.mem_cons_self
    have hlist : part.text.toList ≠ [] := by simpa using hpart.ne_empty
    obtain ⟨c, cs, hcs⟩ := List.exists_cons_of_ne_nil hlist
    have hc : c ≠ '/' := by
      rintro rfl
      exact hpart.noSlash (hcs ▸ List.mem_cons_self)
    rw [List.map_cons, isAbsolute, Text.toList_join_cons, hcs]
    simpa using hc

/-- Where only the first part may be the root, the path of parts tells whether it is, and the other
ones. -/
theorem segments_ofParts {ps : List Part} (hroot : Part.root ∉ ps.tail)
    (h : ∀ part ∈ ps, part ≠ .root → Spelled part) :
    segments (ofParts ps) = (ps.filter (· ≠ .root)).map (·.text) ∧
      (isAbsolute (ofParts ps) = true ↔ ps.head? = some .root) := by
  have hspelled : ∀ qs : List Part, Part.root ∉ qs → qs ⊆ ps → ∀ part ∈ qs, Spelled part := by
    intro qs hqs hsub part hpart
    exact h part (hsub hpart) fun heq => hqs (heq ▸ hpart)
  have hkept : ∀ qs : List Part, Part.root ∉ qs → qs.filter (· ≠ .root) = qs := by
    intro qs hqs
    rw [List.filter_eq_self]
    exact fun part hpart => decide_eq_true fun heq => hqs (heq ▸ hpart)
  by_cases hhead : ps.head? = some .root
  · obtain ⟨rest, rfl⟩ := List.head?_eq_some_iff.1 hhead
    have hpath : ofParts (.root :: rest) = "" ++ "/" ++ Text.join "/" (rest.map (·.text)) := by
      simp [ofParts]
    rw [hpath, segments_append_slash, segments_empty, List.nil_append,
      segments_texts (hspelled rest hroot (List.subset_cons_self _ _)),
      List.filter_cons_of_neg (by simp), hkept rest hroot]
    exact ⟨rfl, by simp [isAbsolute]⟩
  · have hnone : Part.root ∉ ps := by
      cases ps with
      | nil => simp
      | cons part rest =>
        rw [List.mem_cons, not_or]
        exact ⟨fun heq => hhead (by rw [← heq]; rfl), hroot⟩
    have hpath : ofParts ps = Text.join "/" (ps.map (·.text)) := by
      cases ps with
      | nil => rfl
      | cons part rest =>
        cases part with
        | root => exact absurd rfl hhead
        | _ => rfl
    have hall := hspelled ps hnone (List.Subset.refl ps)
    rw [hpath, segments_texts hall, hkept ps hnone, isAbsolute_texts hall]
    exact ⟨rfl, by simp [hhead]⟩

/-- The path of a directory that holds a path starts as the path does. -/
theorem segments_holder {path holder : String} (h : holder ∈ holders path) :
    isAbsolute holder = isAbsolute path ∧
      (segments holder).filter (· ≠ ".") <+: (segments path).filter (· ≠ ".") := by
  rw [holders, List.mem_map] at h
  obtain ⟨n, hn, rfl⟩ := h
  have hpos : 0 < n := by simpa using (List.mem_filter.1 (List.mem_reverse.1 hn)).2
  have htail : Part.root ∉ ((parts path).take n).tail := by
    intro hmem
    rw [← List.drop_one, List.drop_take, List.drop_one] at hmem
    exact root_notMem_tail path (List.mem_of_mem_take hmem)
  have hspelled : ∀ part ∈ (parts path).take n, part ≠ .root → Spelled part :=
    fun part hpart => spelled_of_mem_parts (List.mem_of_mem_take hpart)
  obtain ⟨hsegments, habsolute⟩ := segments_ofParts htail hspelled
  constructor
  · rw [Bool.eq_iff_iff, habsolute, ← head_parts_eq_root_iff, List.head?_take, if_neg hpos.ne']
  · have hpoints : ((parts path).take n).filter (fun part => part ≠ .root ∧ part.text ≠ ".") =
        ((parts path).take n).filter fun part => part ≠ .root ∧ part ≠ .here := by
      apply List.filter_congr
      intro part hpart
      by_cases hroot : part = .root
      · simp [hroot]
      · simp [hroot, (hspelled part hpart hroot).here_iff]
    have hfront : (segments (ofParts ((parts path).take n))).filter (· ≠ ".") =
        (((parts path).take n).filter fun part => part ≠ .root ∧ part ≠ .here).map Part.text := by
      rw [hsegments, List.filter_map, List.filter_filter, ← hpoints]
      simp only [Function.comp_def, Bool.decide_and, Bool.and_comm]
    rw [hfront, segments_of_parts]
    exact ((List.take_prefix n _).filter _).map _

end File.Path

end ComponentWiring
