import ComponentWiring.Data.Value
import Mathlib.Data.List.Nodup

/-! # Fields with keys

Laws of the fields of records, above all where their keys are different.

* `Data.sortFields_perm`: fields of different keys are only put in another order.
* `Data.mem_of_mem_sortFields`: no field is made by sorting.
* `Data.lookupField?_eq_some_iff`: what is found under a key.
* `Data.sorted_sortFields`, `Data.lookupField?_sortFields`: sorted fields have different keys, and
  what is found in them is what was found before.
* `Data.lookupField?_map_replace`, `Data.lookupField?_concat`: what is found after a change.
-/

namespace ComponentWiring.Data
set_option autoImplicit false

variable {α : Type} {key other : String} {fields : List (String × α)} {x : α}

/-! ## Sorting -/

theorem insertField_nil (key : String) (x : α) : insertField key x [] = [(key, x)] := rfl

theorem insertField_of_lt {y : α} (h : key < other) :
    insertField key x ((other, y) :: fields) = (key, x) :: (other, y) :: fields := by
  rw [insertField, if_pos h]

theorem insertField_of_not_lt {y : α} (hlt : ¬ key < other) (hne : key ≠ other) :
    insertField key x ((other, y) :: fields) = (other, y) :: insertField key x fields := by
  rw [insertField, if_neg hlt, if_neg hne]

theorem insertField_perm {key : String} (value : α) {fields : List (String × α)}
    (h : key ∉ fields.map (·.1)) :
    (insertField key value fields).Perm ((key, value) :: fields) := by
  induction fields with
  | nil => exact List.Perm.refl _
  | cons field fields ih =>
    obtain ⟨k, v⟩ := field
    rw [List.map_cons, List.mem_cons, not_or] at h
    rw [insertField]
    split
    · exact List.Perm.refl _
    · rw [if_neg h.1]
      exact ((ih h.2).cons (k, v)).trans (List.Perm.swap _ _ _)

theorem foldl_insertField_perm {fields sorted : List (String × α)}
    (h : (sorted.map (·.1) ++ fields.map (·.1)).Nodup) :
    (fields.foldl (fun sorted field => insertField field.1 field.2 sorted) sorted).Perm
      (sorted ++ fields) := by
  induction fields generalizing sorted with
  | nil => simp
  | cons field fields ih =>
    rw [List.map_cons] at h
    have hperm : (sorted.map (·.1) ++ field.1 :: fields.map (·.1)).Perm
        (field.1 :: (sorted.map (·.1) ++ fields.map (·.1))) := List.perm_middle
    rw [hperm.nodup_iff, List.nodup_cons, List.mem_append, not_or] at h
    have hinsert := insertField_perm field.2 h.1.1
    have hkeys : ((insertField field.1 field.2 sorted).map (·.1) ++ fields.map (·.1)).Nodup := by
      rw [((hinsert.map (·.1)).append_right _).nodup_iff, List.map_cons, List.cons_append,
        List.nodup_cons, List.mem_append, not_or]
      exact h
    exact (ih hkeys).trans ((hinsert.append_right fields).trans List.perm_middle.symm)

theorem sortFields_perm {fields : List (String × α)} (h : (fields.map (·.1)).Nodup) :
    (sortFields fields).Perm fields := foldl_insertField_perm h

theorem mem_of_mem_insertField {f : String × α} (h : f ∈ insertField key x fields) :
    f = (key, x) ∨ f ∈ fields := by
  induction fields with
  | nil => exact .inl (List.mem_singleton.1 h)
  | cons field fields ih =>
    obtain ⟨k, v⟩ := field
    rw [insertField] at h
    split at h
    · exact List.mem_cons.1 h
    · split at h
      · exact (List.mem_cons.1 h).imp_right (List.mem_cons_of_mem _)
      · rcases List.mem_cons.1 h with rfl | h
        · exact .inr List.mem_cons_self
        · exact (ih h).imp_right (List.mem_cons_of_mem _)

theorem mem_of_mem_foldl_insertField {f : String × α} {sorted : List (String × α)}
    (h : f ∈ fields.foldl (fun sorted field => insertField field.1 field.2 sorted) sorted) :
    f ∈ sorted ∨ f ∈ fields := by
  induction fields generalizing sorted with
  | nil => exact .inl h
  | cons field fields ih =>
    rcases ih h with h | h
    · rcases mem_of_mem_insertField h with rfl | h
      · exact .inr List.mem_cons_self
      · exact .inl h
    · exact .inr (List.mem_cons_of_mem _ h)

theorem mem_of_mem_sortFields {f : String × α} (h : f ∈ sortFields fields) : f ∈ fields :=
  (mem_of_mem_foldl_insertField h).resolve_left List.not_mem_nil

/-! ## Finding -/

theorem lookupField?_eq_none_iff : lookupField? key fields = none ↔ key ∉ fields.map (·.1) := by
  rw [lookupField?, Option.map_eq_none_iff, List.find?_eq_none, List.mem_map]
  constructor
  · rintro hnone ⟨f, hf, hkey⟩
    exact hnone f (List.mem_reverse.2 hf) (decide_eq_true hkey)
  · intro hnone f hf hkey
    exact hnone ⟨f, List.mem_reverse.1 hf, of_decide_eq_true hkey⟩

theorem lookupField?_eq_some_iff (hnodup : (fields.map (·.1)).Nodup) :
    lookupField? key fields = some x ↔ (key, x) ∈ fields := by
  rw [lookupField?, Option.map_eq_some_iff]
  constructor
  · rintro ⟨f, hf, rfl⟩
    have hkey : f.1 = key := by simpa using List.find?_some hf
    rw [← hkey]
    exact List.mem_reverse.1 (List.mem_of_find?_eq_some hf)
  · intro hmem
    cases hfind : fields.reverse.find? (·.1 = key) with
    | none =>
      have hnone := List.find?_eq_none.1 hfind (key, x) (List.mem_reverse.2 hmem)
      simp at hnone
    | some f =>
      have hkey : f.1 = key := by simpa using List.find?_some hfind
      have hf := List.mem_reverse.1 (List.mem_of_find?_eq_some hfind)
      exact ⟨f, rfl, congrArg Prod.snd (List.inj_on_of_nodup_map hnodup hf hmem hkey)⟩

theorem lookupField?_cons (f : String × α) :
    lookupField? key (f :: fields) =
      (lookupField? key fields).or (if f.1 = key then some f.2 else none) := by
  rw [lookupField?, lookupField?, List.reverse_cons, List.find?_append, Option.map_or]
  by_cases h : f.1 = key <;> simp [h]

theorem lookupField?_cons_self (h : lookupField? key fields = none) :
    lookupField? key ((key, x) :: fields) = some x := by
  rw [lookupField?_cons, h, if_pos rfl, Option.none_or]

/-- With different keys it does not matter from which end a key is looked for. -/
theorem find?_eq_some_iff (hnodup : (fields.map (·.1)).Nodup) {f : String × α} :
    fields.find? (·.1 = key) = some f ↔ f.1 = key ∧ lookupField? key fields = some f.2 := by
  rw [lookupField?_eq_some_iff hnodup]
  constructor
  · intro hfind
    have hkey : f.1 = key := by simpa using List.find?_some hfind
    refine ⟨hkey, ?_⟩
    rw [← hkey]
    exact List.mem_of_find?_eq_some hfind
  · rintro ⟨rfl, hmem⟩
    cases hfind : fields.find? (·.1 = f.1) with
    | none =>
      have hnone := List.find?_eq_none.1 hfind f hmem
      simp at hnone
    | some g =>
      have hkey : g.1 = f.1 := by simpa using List.find?_some hfind
      rw [List.inj_on_of_nodup_map hnodup (List.mem_of_find?_eq_some hfind) hmem hkey]

/-! ## Finding in sorted fields -/

/-- The keys of the fields grow, so they are different. -/
def Sorted (fields : List (String × α)) : Prop := (fields.map (·.1)).Pairwise (· < ·)

theorem Sorted.nodup (h : Sorted fields) : (fields.map (·.1)).Nodup := by
  refine List.Pairwise.imp ?_ h
  rintro k k' hlt rfl
  exact String.lt_irrefl _ hlt

theorem sorted_cons_iff {f : String × α} :
    Sorted (f :: fields) ↔ (∀ k ∈ fields.map (·.1), f.1 < k) ∧ Sorted fields :=
  List.pairwise_cons

theorem Sorted.lt_of_lt {v : α} (h : Sorted ((other, v) :: fields)) (hlt : key < other) :
    ∀ k ∈ ((other, v) :: fields).map (·.1), key < k := by
  rw [List.map_cons, List.forall_mem_cons]
  exact ⟨hlt, fun k hk => String.lt_trans hlt ((sorted_cons_iff.1 h).1 k hk)⟩

theorem lookupField?_eq_none_of_lt (h : ∀ k ∈ fields.map (·.1), key < k) :
    lookupField? key fields = none :=
  lookupField?_eq_none_iff.2 fun hkey => String.lt_irrefl _ (h key hkey)

theorem mem_keys_insertField (h : other ∈ (insertField key x fields).map (·.1)) :
    other = key ∨ other ∈ fields.map (·.1) := by
  obtain ⟨f, hf, rfl⟩ := List.mem_map.1 h
  rcases mem_of_mem_insertField hf with rfl | hf
  · exact .inl rfl
  · exact .inr (List.mem_map_of_mem hf)

theorem Sorted.insertField (h : Sorted fields) (key : String) (x : α) :
    Sorted (insertField key x fields) := by
  induction fields with
  | nil => exact List.pairwise_singleton _ _
  | cons f fields ih =>
    obtain ⟨k, v⟩ := f
    obtain ⟨hk, hfields⟩ := sorted_cons_iff.1 h
    rw [Data.insertField]
    split
    · next hlt => exact sorted_cons_iff.2 ⟨h.lt_of_lt hlt, h⟩
    · next hnot =>
      split
      · next heq => exact sorted_cons_iff.2 ⟨heq ▸ hk, hfields⟩
      · next hne =>
        refine sorted_cons_iff.2 ⟨fun k' hk' => ?_, ih hfields⟩
        rcases mem_keys_insertField hk' with rfl | hk'
        · exact Std.lt_of_le_of_ne (String.not_lt.1 hnot) (Ne.symm hne)
        · exact hk k' hk'

theorem Sorted.lookupField?_insertField (h : Sorted fields) :
    lookupField? other (Data.insertField key x fields) =
      if key = other then some x else lookupField? other fields := by
  induction fields with
  | nil =>
    rw [insertField_nil, lookupField?_cons]
    rfl
  | cons f fields ih =>
    obtain ⟨k, v⟩ := f
    obtain ⟨hk, hfields⟩ := sorted_cons_iff.1 h
    rw [Data.insertField]
    split
    · next hlt =>
      rw [lookupField?_cons]
      split
      · next heq =>
        subst heq
        rw [lookupField?_eq_none_of_lt (h.lt_of_lt hlt), Option.none_or]
      · rw [Option.or_none]
    · split
      · next heq =>
        subst heq
        rw [lookupField?_cons, lookupField?_cons]
        split
        · next heq =>
          subst heq
          rw [lookupField?_eq_none_of_lt hk, Option.none_or]
        · rfl
      · rw [lookupField?_cons, ih hfields, lookupField?_cons]
        split
        · rfl
        · rfl

theorem sorted_sortFields (fields : List (String × α)) : Sorted (sortFields fields) := by
  suffices h : ∀ sorted, Sorted sorted →
      Sorted (fields.foldl (fun sorted f => insertField f.1 f.2 sorted) sorted) from
    h [] List.Pairwise.nil
  induction fields with
  | nil => exact fun _ h => h
  | cons f fields ih => exact fun sorted h => ih _ (h.insertField f.1 f.2)

/-- Sorting changes nothing about what is found. -/
theorem lookupField?_sortFields (key : String) (fields : List (String × α)) :
    lookupField? key (sortFields fields) = lookupField? key fields := by
  -- Fields that are still to be put in lie over those that are sorted already.
  suffices h : ∀ sorted, Sorted sorted →
      lookupField? key (fields.foldl (fun sorted f => insertField f.1 f.2 sorted) sorted) =
        (lookupField? key fields).or (lookupField? key sorted) by
    have hnil : lookupField? key ([] : List (String × α)) = none := rfl
    rw [sortFields, h [] List.Pairwise.nil, hnil, Option.or_none]
  induction fields with
  | nil => exact fun _ _ => rfl
  | cons f fields ih =>
    intro sorted h
    rw [List.foldl_cons, ih _ (h.insertField f.1 f.2), h.lookupField?_insertField,
      lookupField?_cons, Option.or_assoc]
    split <;> rfl

/-! ## Changing -/

theorem lookupField?_map {β : Type} (change : α → β) :
    lookupField? key (fields.map fun f => (f.1, change f.2)) =
      (lookupField? key fields).map change := by
  rw [lookupField?, lookupField?, ← List.map_reverse, List.find?_map, Option.map_map,
    Option.map_map]
  rfl

theorem lookupField?_concat :
    lookupField? other (fields ++ [(key, x)]) =
      if key = other then some x else lookupField? other fields := by
  rw [lookupField?, List.reverse_append, List.reverse_singleton, List.singleton_append]
  by_cases h : key = other
  · simp [h]
  · simp [h, lookupField?]

theorem keys_map_replace (key : String) (x : α) (fields : List (String × α)) :
    (fields.map fun f => if f.1 = key then (key, x) else f).map (·.1) = fields.map (·.1) := by
  rw [List.map_map]
  refine List.map_congr_left fun f _ => ?_
  rw [Function.comp_apply]
  split
  · next h => exact h.symm
  · rfl

theorem lookupField?_map_replace (hkey : key ∈ fields.map (·.1)) :
    lookupField? other (fields.map fun f => if f.1 = key then (key, x) else f) =
      if key = other then some x else lookupField? other fields := by
  have hsame : ((fun f : String × α => decide (f.1 = other)) ∘
      fun f => if f.1 = key then (key, x) else f) = fun f => decide (f.1 = other) := by
    funext f
    rw [Function.comp_apply]
    split
    · next h => rw [h]
    · rfl
  rw [lookupField?, ← List.map_reverse, List.find?_map, hsame, Option.map_map]
  cases hfind : fields.reverse.find? (·.1 = other) with
  | none =>
    have hnone : lookupField? other fields = none := by rw [lookupField?, hfind]; rfl
    rw [if_neg, hnone]
    · rfl
    · rintro rfl
      exact lookupField?_eq_none_iff.1 hnone hkey
  | some f =>
    have hf : f.1 = other := by simpa using List.find?_some hfind
    rw [Option.map_some, Function.comp_apply, hf, lookupField?, hfind]
    by_cases h : key = other
    · rw [if_pos h, if_pos h.symm]
    · rw [if_neg h, if_neg (Ne.symm h)]
      rfl

end ComponentWiring.Data
