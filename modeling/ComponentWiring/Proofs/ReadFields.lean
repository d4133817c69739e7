import ComponentWiring.Data.Reader
import ComponentWiring.Error
import ComponentWiring.Proofs.KeyedFields

/-! # Reading the fields of records

A structure is read from a record field by field into a draft. Where a part of the draft is put by
the field with one key only, this part of the structure is what stands under the key.

* `Data.Shape.Sees`: a part of a draft that one field puts.
* `Data.Shape.Sees.reader_eq`: such a part of a structure that was read.
-/

namespace ComponentWiring.Data
set_option autoImplicit false

variable {σ β : Type} {shape : Shape σ σ} {key : String} {observe : σ → β} {v : Value}
  {fields : List (String × Value)} {draft result : σ}

/-- The first field of a record is read into the draft, or is unknown and passed over. -/
theorem Shape.exists_of_readFields_cons {k : String}
    (h : shape.readFields ((k, v) :: fields) draft = .ok result) :
    ∃ draft', shape.readFields fields draft' = .ok result ∧
      (draft' = draft ∧ shape.fields.find? (·.name = k) = none ∨
        ∃ field, shape.fields.find? (·.name = k) = some field ∧
          field.read v draft = .ok draft') := by
  rw [Shape.readFields] at h
  split at h
  · next field hfield =>
    obtain ⟨draft', hread, hrest⟩ := bind_eq_ok_iff.1 h
    exact ⟨draft', hrest, .inr ⟨field, hfield, mapError_eq_ok_iff.1 hread⟩⟩
  · next hnone =>
    split at h
    · cases h
    · exact ⟨draft, h, .inl ⟨rfl, hnone⟩⟩

/-- A field that leaves what is seen of a draft as it is. -/
def Field.Keeps (field : Field σ) (observe : σ → β) : Prop :=
  ∀ v draft draft', field.read v draft = .ok draft' → observe draft' = observe draft

/-- What is seen of a draft is what is read by the field with a key, and by no other field. -/
structure Shape.Sees (shape : Shape σ σ) (key : String) (reader : Reader β) (observe : σ → β) :
    Prop where
  read_eq : ∃ field, shape.fields.find? (·.name = key) = some field ∧
    ∀ v draft draft', field.read v draft = .ok draft' → reader v = .ok (observe draft')
  keeps : ∀ field ∈ shape.fields, field.name ≠ key → field.Keeps observe
  finish_eq : shape.finish = .ok

section Put
variable {γ : Type} {name : String} {mayBeLeftOff : Bool}

theorem Field.exists_of_put {reader : Reader γ} {put : γ → σ}
    (h : (do pure (put (← reader v))) = Except.ok result) :
    ∃ x, reader v = .ok x ∧ put x = result := by
  obtain ⟨x, hread, hput⟩ := bind_eq_ok_iff.1 h
  exact ⟨x, hread, Except.ok.inj hput⟩

theorem Field.keeps_of_put {reader : Reader γ} {put : γ → σ → σ}
    (h : ∀ x draft, observe (put x draft) = observe draft) :
    Field.Keeps ⟨name, fun v draft => do pure (put (← reader v) draft), mayBeLeftOff⟩ observe := by
  intro v draft draft' hread
  obtain ⟨x, -, rfl⟩ := exists_of_put hread
  exact h x draft

/-- The field with the key puts what it reads where it is seen, and the others put it elsewhere. -/
theorem Shape.Sees.of_put {reader : Reader β} {put : β → σ → σ}
    (hfield : shape.fields.find? (·.name = key) =
      some ⟨name, fun v draft => do pure (put (← reader v) draft), mayBeLeftOff⟩)
    (hput : ∀ x draft, observe (put x draft) = x)
    (hothers : ∀ field ∈ shape.fields, field.name ≠ key → field.Keeps observe)
    (hfinish : shape.finish = .ok) : shape.Sees key reader observe where
  read_eq := by
    refine ⟨_, hfield, fun v draft draft' hread => ?_⟩
    obtain ⟨x, hx, rfl⟩ := Field.exists_of_put hread
    rw [hx, hput]
  keeps := hothers
  finish_eq := hfinish

end Put

namespace Shape.Sees
variable {reader : Reader β} (hsees : shape.Sees key reader observe)
include hsees

theorem readFields_of_notMem (h : shape.readFields fields draft = .ok result)
    (hkey : key ∉ fields.map (·.1)) : observe result = observe draft := by
  induction fields generalizing draft with
  | nil =>
    cases h
    rfl
  | cons f fields ih =>
    obtain ⟨k, v⟩ := f
    rw [List.map_cons, List.mem_cons, not_or] at hkey
    obtain ⟨draft', hrest, ⟨rfl, -⟩ | ⟨field, hfield, hread⟩⟩ := exists_of_readFields_cons h
    · exact ih hrest hkey.2
    · have hname : field.name = k := by simpa using List.find?_some hfield
      rw [ih hrest hkey.2]
      exact hsees.keeps field (List.mem_of_find?_eq_some hfield) (hname ▸ Ne.symm hkey.1) v _ _
        hread

theorem readFields_of_mem (h : shape.readFields fields draft = .ok result)
    (hnodup : (fields.map (·.1)).Nodup) (hv : (key, v) ∈ fields) :
    reader v = .ok (observe result) := by
  obtain ⟨field, hfield, hput⟩ := hsees.read_eq
  induction fields generalizing draft with
  | nil => cases hv
  | cons f fields ih =>
    obtain ⟨k, w⟩ := f
    rw [List.map_cons, List.nodup_cons] at hnodup
    obtain ⟨draft', hrest, hfirst⟩ := exists_of_readFields_cons h
    rcases List.mem_cons.1 hv with heq | hv
    · cases heq
      rw [hsees.readFields_of_notMem hrest hnodup.1]
      rcases hfirst with ⟨-, hnone⟩ | ⟨field', hfield', hread⟩
      · cases hfield.symm.trans hnone
      · cases hfield.symm.trans hfield'
        exact hput _ _ _ hread
    · exact ih hrest hnodup.2 hv

/-- What is seen of a structure is what is read from under the key of the record. -/
theorem reader_eq {form : Form} (h : structured form shape (.record fields) = .ok result)
    (hnodup : (fields.map (·.1)).Nodup) (hv : lookupField? key fields = some v) :
    reader v = .ok (observe result) := by
  have hsorted := sortFields_perm hnodup
  rw [structured_record, hsees.finish_eq] at h
  obtain ⟨draft, hread, hfinish⟩ := bind_eq_ok_iff.1 h
  cases hfinish
  rw [lookupField?_eq_some_iff hnodup] at hv
  exact hsees.readFields_of_mem hread ((hsorted.map _).nodup_iff.2 hnodup)
    (hsorted.mem_iff.2 hv)

end Shape.Sees

end ComponentWiring.Data
