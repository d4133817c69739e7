import ComponentWiring.Data.Reader
import ComponentWiring.Error
import ComponentWiring.Proofs.KeyedFields

/-! # The values that structures are read from

A structure is read from a record or from a list in field order. What it holds is told by what
stands under the names of its fields, in whatever order and with whatever other keys.

* `Data.Accepts`: exactly which values a reader takes, and as what.
* `Data.Value.Gives`: the rows that a value gives for the fields of a structure.
* `Data.Has`, `Data.MayHave`: what stands under a key of the rows.
* `Data.Fills`: the draft that the fields make of the rows.
* `Data.Shape.Regular.structured_iff`: when a structure is read.
-/

namespace ComponentWiring.Data
set_option autoImplicit false

variable {σ α β γ : Type} {rows : List (String × Value)} {key : String} {v : Value}

/-! ## Single values -/

/-- A reader takes the values that spell something, and reads them as that. -/
def Accepts (reader : Reader α) (Spells : Value → α → Prop) : Prop :=
  ∀ v x, reader v = .ok x ↔ Spells v x

namespace Spells

def text (v : Value) (s : String) : Prop := v = .text s

def truth (v : Value) (b : Bool) : Prop := v = .bool b

def count (v : Value) (n : Nat) : Prop := v = .integer n ∨ v = .natural n

/-- Nothing is spelled by the empty value, which spells nothing else. -/
def option (Means : Value → α → Prop) (v : Value) : Option α → Prop
  | none => v = .null
  | some x => v ≠ .null ∧ Means v x

/-- A list with a value for each item. -/
def list (Means : Value → α → Prop) (v : Value) (xs : List α) : Prop :=
  ∃ items, v = .list items ∧ List.Forall₂ Means items xs

/-- A record with one key, and what stands under it. -/
def only (key : String) (content v : Value) : Prop :=
  ∃ rows, v.fields? = some rows ∧ sortFields rows = [(key, content)]

/-- One of the names, as a text or as the only key of a record with nothing under it. -/
def name (names : α → List String) (v : Value) (x : α) : Prop :=
  ∃ name ∈ names x, v = .text name ∨ only name .null v

end Spells

theorem not_ok_wrongType {wanted : Wanted} {x : α} : wrongType v wanted ≠ .ok x := nofun

theorem accepts_string : Accepts Reader.string Spells.text := by
  intro v s
  cases v <;> simp [Reader.string, Spells.text, not_ok_wrongType]

theorem accepts_path : Accepts Reader.path Spells.text := by
  intro v s
  cases v <;> simp [Reader.path, Spells.text, not_ok_wrongType]

theorem accepts_boolean : Accepts Reader.boolean Spells.truth := by
  intro v b
  cases v <;> simp [Reader.boolean, Spells.truth, not_ok_wrongType]

theorem accepts_count : Accepts Reader.count Spells.count := by
  intro v n
  cases v with
  | integer z =>
    by_cases h : 0 ≤ z
    · simp only [Reader.count, h, if_true, Except.ok.injEq, Spells.count, Value.integer.injEq,
        reduceCtorEq, or_false]
      omega
    · simp only [Reader.count, h, if_false, Spells.count, Value.integer.injEq, reduceCtorEq,
        or_false, false_iff]
      omega
  | _ => simp [Reader.count, Spells.count, not_ok_wrongType]

section Parts
variable {reader : Reader α} {Means : Value → α → Prop} (h : Accepts reader Means)
include h

theorem accepts_optional : Accepts (Reader.optional reader) (Spells.option Means) := by
  intro v x
  by_cases hv : v = .null
  · subst hv
    cases x <;> simp [Reader.optional, Spells.option]
  · have hmap : Reader.optional reader v = (reader v).map some := by
      cases v <;> first | rfl | exact absurd rfl hv
    rw [hmap, map_eq_ok_iff]
    cases x with
    | none => simp [Spells.option, hv]
    | some x => simp [Spells.option, hv, h v x]

theorem itemsFrom_eq_ok_iff (index : Nat) (items : List Value) (xs : List α) :
    Reader.itemsFrom reader index items = .ok xs ↔ List.Forall₂ Means items xs := by
  induction items generalizing index xs with
  | nil =>
    rw [Reader.itemsFrom, Except.ok.injEq, List.forall₂_nil_left_iff]
    exact eq_comm
  | cons item items ih =>
    rw [Reader.itemsFrom, bind_eq_ok_iff, List.forall₂_cons_left_iff]
    refine exists_congr fun x => ?_
    rw [mapError_eq_ok_iff, h item x, bind_eq_ok_iff]
    constructor
    · rintro ⟨hx, xs', hxs', heq⟩
      exact ⟨xs', hx, (ih _ _).1 hxs', (Except.ok.inj heq).symm⟩
    · rintro ⟨xs', hx, hxs', rfl⟩
      exact ⟨hx, xs', (ih _ _).2 hxs', rfl⟩

theorem accepts_list : Accepts (Reader.list reader) (Spells.list Means) := by
  intro v xs
  cases v with
  | list items =>
    rw [Reader.list, itemsFrom_eq_ok_iff h]
    constructor
    · exact fun hitems => ⟨items, rfl, hitems⟩
    · rintro ⟨_, ⟨⟩, hitems⟩
      exact hitems
  | _ => simp [Reader.list, Spells.list, not_ok_wrongType]

end Parts

/-! ## Names -/

theorem named_eq_ok_iff {known : List (String × α)} (hnodup : (known.map (·.1)).Nodup)
    {name : String} {x : α} : named known name = .ok x ↔ (name, x) ∈ known := by
  rw [named, ← lookupField?_eq_some_iff hnodup]
  split
  · next k y hfind =>
    obtain ⟨-, hlookup⟩ := (find?_eq_some_iff hnodup).1 hfind
    rw [hlookup, Except.ok.injEq, Option.some.injEq]
  · next hnone =>
    refine iff_of_false nofun fun hlookup => ?_
    have hfind := (find?_eq_some_iff hnodup (f := (name, x))).2 ⟨rfl, hlookup⟩
    cases hnone.symm.trans hfind

/-- The fields of a record with one key. -/
theorem only_iff {content : Value} :
    Spells.only key content v ↔ v.fields?.map sortFields = some [(key, content)] :=
  Option.map_eq_some_iff.symm

theorem accepts_choice {known : List (String × α)} {names : α → List String}
    (hnodup : (known.map (·.1)).Nodup) (hnames : ∀ x name, (name, x) ∈ known ↔ name ∈ names x)
    (title : String) : Accepts (choice .json title known) (Spells.name names) := by
  intro v x
  rw [choice.eq_def]
  simp only [Spells.name, only_iff, ← hnames, ← named_eq_ok_iff hnodup]
  split
  · simp [Value.fields?]
  · next hv =>
    split
    · next key content _ hfields =>
      rw [bind_eq_ok_iff]
      constructor
      · rintro ⟨y, hnamed, hcontent⟩
        split at hcontent
        · cases hcontent
          exact ⟨key, hnamed, .inr hfields⟩
        · exact absurd hcontent not_ok_wrongType
      · rintro ⟨name, hnamed, rfl | honly⟩
        · exact absurd rfl (hv name)
        · cases hfields.symm.trans honly
          exact ⟨x, hnamed, rfl⟩
    · next hmany _ hfields =>
      refine iff_of_false nofun ?_
      rintro ⟨name, -, rfl | honly⟩
      · exact hv name rfl
      · exact hmany name .null (Option.some.inj (hfields.symm.trans honly))
    · next hnone =>
      refine iff_of_false not_ok_wrongType ?_
      rintro ⟨name, -, rfl | honly⟩
      · exact hv name rfl
      · cases hnone.symm.trans honly
    -- the other forms
    all_goals contradiction

theorem tagged_eq_ok_iff {known : List (String × Reader α)} (hnodup : (known.map (·.1)).Nodup)
    {x : α} : tagged known v = .ok x ↔
      ∃ key reader content, (key, reader) ∈ known ∧ Spells.only key content v ∧
        reader content = .ok x := by
  simp only [only_iff, ← named_eq_ok_iff hnodup]
  rw [tagged.eq_def]
  split
  · next s =>
    refine iff_of_false (fun h => ?_) nofun
    obtain ⟨_, -, h⟩ := bind_eq_ok_iff.1 h
    cases h
  · split
    · next key content hfields =>
      rw [bind_eq_ok_iff]
      constructor
      · rintro ⟨reader, hnamed, hread⟩
        exact ⟨key, reader, content, hnamed, hfields, hread⟩
      · rintro ⟨_, reader, _, hnamed, honly, hread⟩
        cases hfields.symm.trans honly
        exact ⟨reader, hnamed, hread⟩
    · next hmany hfields =>
      refine iff_of_false nofun ?_
      rintro ⟨key, _, content, -, honly, -⟩
      exact hmany key content (Option.some.inj (hfields.symm.trans honly))
    · next hnone =>
      refine iff_of_false not_ok_wrongType ?_
      rintro ⟨_, _, _, -, honly, -⟩
      cases hnone.symm.trans honly

/-! ## Fields -/

/-- The rows of a value that stands for a structure: the fields of a record, or the items of a list
under the names of the fields. A list must reach the fields that it may not end before, and ends
with the last one. -/
def Value.Gives (v : Value) (must may : List String) (rows : List (String × Value)) : Prop :=
  v.fields? = some rows ∨ ∃ items, v = .list items ∧ must.length ≤ items.length ∧
    items.length ≤ (must ++ may).length ∧ rows = (must ++ may).zip items

/-- The rows of a structure tell something. -/
def Spells.inRows (must may : List String) (Told : List (String × Value) → α → Prop) (v : Value)
    (x : α) : Prop :=
  ∃ rows, v.Gives must may rows ∧ Told rows x

/-- What stands under a key. -/
def Has (rows : List (String × Value)) (key : String) (Means : Value → β → Prop) (x : β) : Prop :=
  ∃ v, lookupField? key rows = some v ∧ Means v x

/-- What stands under a key, or something else where the key is missing. -/
def MayHave (rows : List (String × Value)) (key : String) (Means : Value → β → Prop)
    (default x : β) : Prop :=
  lookupField? key rows = none ∧ x = default ∨ Has rows key Means x

/-- A field takes what stands under its name into the draft, which is left as it is where nothing
does. -/
def Field.Takes (field : Field σ) (rows : List (String × Value)) (draft next : σ) : Prop :=
  match lookupField? field.name rows with
  | none => next = draft
  | some v => field.read v draft = .ok next

/-- The fields, one after the other, make a draft of the rows. -/
def Fills (rows : List (String × Value)) : List (Field σ) → σ → σ → Prop
  | [], draft, result => result = draft
  | field :: fields, draft, result =>
    ∃ next, field.Takes rows draft next ∧ Fills rows fields next result

/-- Two fields that may be read in either order. -/
def Field.Apart (f g : Field σ) : Prop :=
  ∀ v w draft result, (∃ next, f.read v draft = .ok next ∧ g.read w next = .ok result) ↔
    ∃ next, g.read w draft = .ok next ∧ f.read v next = .ok result

section Fields
variable {f g : Field σ} {fields : List (Field σ)} {draft next result : σ}

theorem Field.takes_of_eq_some (h : lookupField? f.name rows = some v) :
    f.Takes rows draft next ↔ f.read v draft = .ok next := by rw [Takes, h]

theorem Field.takes_of_eq_none (h : lookupField? f.name rows = none) :
    f.Takes rows draft next ↔ next = draft := by rw [Takes, h]

theorem Field.takes_cons_of_ne (h : key ≠ f.name) :
    f.Takes ((key, v) :: rows) draft next ↔ f.Takes rows draft next := by
  rw [Takes, Takes, lookupField?_cons, if_neg h, Option.or_none]

/-- Of three steps the first two may be taken together. -/
theorem exists_step_iff {First : σ → Prop} {Second : σ → σ → Prop} {Third : σ → Prop} :
    (∃ next, First next ∧ ∃ last, Second next last ∧ Third last) ↔
      ∃ last, (∃ next, First next ∧ Second next last) ∧ Third last := by
  constructor
  · rintro ⟨next, hfirst, last, hsecond, hthird⟩
    exact ⟨last, ⟨next, hfirst, hsecond⟩, hthird⟩
  · rintro ⟨last, ⟨next, hfirst, hsecond⟩, hthird⟩
    exact ⟨next, hfirst, last, hsecond, hthird⟩

theorem fills_cons_of_notMem (h : key ∉ fields.map (·.name)) :
    Fills ((key, v) :: rows) fields draft result ↔ Fills rows fields draft result := by
  induction fields generalizing draft with
  | nil => rfl
  | cons f fields ih =>
    rw [List.map_cons, List.mem_cons, not_or] at h
    exact exists_congr fun next => and_congr (Field.takes_cons_of_ne h.1) (ih h.2)

theorem fills_nil : Fills rows [] draft result ↔ result = draft := Iff.rfl

theorem fills_nil_rows : Fills [] fields draft result ↔ result = draft := by
  induction fields generalizing draft with
  | nil => rfl
  | cons f fields ih =>
    constructor
    · rintro ⟨_, rfl, hrest⟩
      exact ih.1 hrest
    · exact fun h => ⟨draft, rfl, ih.2 h⟩

/-- A field may be read before one that takes its value from the rows. -/
theorem Field.Apart.takes (h : g.Apart f) :
    (∃ next, g.Takes rows draft next ∧ f.read v next = .ok result) ↔
      ∃ next, f.read v draft = .ok next ∧ g.Takes rows next result := by
  cases hlookup : lookupField? g.name rows with
  | none =>
    simp only [takes_of_eq_none hlookup]
    constructor
    · rintro ⟨_, rfl, hread⟩
      exact ⟨result, hread, rfl⟩
    · rintro ⟨_, hread, rfl⟩
      exact ⟨draft, rfl, hread⟩
  | some w =>
    simp only [takes_of_eq_some hlookup]
    exact h w v draft result

/-- The field of a row may be read before all others. -/
theorem fills_cons_of_mem (hnodup : (fields.map (·.name)).Nodup)
    (hapart : fields.Pairwise Field.Apart) (hf : f ∈ fields)
    (hrows : lookupField? f.name rows = none) :
    Fills ((f.name, v) :: rows) fields draft result ↔
      ∃ next, f.read v draft = .ok next ∧ Fills rows fields next result := by
  induction fields generalizing draft with
  | nil => cases hf
  | cons g fields ih =>
    rw [List.map_cons, List.nodup_cons] at hnodup
    obtain ⟨hapartg, hapart⟩ := List.pairwise_cons.1 hapart
    rcases List.mem_cons.1 hf with rfl | hf
    · simp only [Fills, Field.takes_of_eq_some (lookupField?_cons_self hrows),
        Field.takes_of_eq_none hrows, fills_cons_of_notMem hnodup.1, exists_eq_left]
    · have hne : f.name ≠ g.name := fun h => hnodup.1 (h ▸ List.mem_map_of_mem hf)
      -- The field is moved in front of the first one, past which the induction has brought it.
      calc Fills ((f.name, v) :: rows) (g :: fields) draft result
          ↔ ∃ next, g.Takes rows draft next ∧
              ∃ last, f.read v next = .ok last ∧ Fills rows fields last result := by
            simp only [Fills, Field.takes_cons_of_ne hne, ih hnodup.2 hapart hf]
        _ ↔ ∃ last, (∃ next, g.Takes rows draft next ∧ f.read v next = .ok last) ∧
              Fills rows fields last result := exists_step_iff
        _ ↔ ∃ last, (∃ next, f.read v draft = .ok next ∧ g.Takes rows next last) ∧
              Fills rows fields last result := by simp only [(hapartg f hf).takes]
        _ ↔ ∃ next, f.read v draft = .ok next ∧ Fills rows (g :: fields) next result :=
            exists_step_iff.symm

end Fields

/-! ## Structures -/

/-- A structure whose fields may be read in any order: the fields that a list may not end before,
then those that it may. Other keys are passed over. -/
structure Shape.Regular (shape : Shape σ α) (must may : List String) : Prop where
  fields_eq : (shape.fields.map fun f => (f.name, f.mayBeLeftOff)) =
    must.map (·, false) ++ may.map (·, true)
  nodup : (must ++ may).Nodup
  apart : shape.fields.Pairwise Field.Apart
  closed_eq : shape.closed = false

namespace Shape.Regular
variable {shape : Shape σ α} {must may : List String} {draft result : σ}
  (h : shape.Regular must may)
include h

theorem names_eq : shape.fields.map (·.name) = must ++ may := by
  have hnames := congrArg (List.map Prod.fst) h.fields_eq
  simpa only [List.map_map, List.map_append, Function.comp_def, List.map_id'] using hnames

theorem nodup_names : (shape.fields.map (·.name)).Nodup := h.names_eq ▸ h.nodup

theorem length_fields : shape.fields.length = (must ++ may).length := by
  rw [← h.names_eq, List.length_map]

/-- A list may end before all fields from an index on if it has reached those it must reach. -/
theorem mayBeLeftOff_iff (n : Nat) :
    (∀ f ∈ shape.fields.drop n, f.mayBeLeftOff = true) ↔ must.length ≤ n := by
  have hflags := congrArg (List.map Prod.snd) h.fields_eq
  simp only [List.map_map, List.map_append, Function.comp_def, List.map_const'] at hflags
  have hdrop : (∀ f ∈ shape.fields.drop n, f.mayBeLeftOff = true) ↔
      ∀ b ∈ (shape.fields.map (·.mayBeLeftOff)).drop n, b = true := by
    rw [← List.map_drop, List.forall_mem_map]
  rw [hdrop, hflags, List.drop_append, List.drop_replicate, List.drop_replicate]
  constructor
  · intro hall
    by_contra hlt
    have hmem : false ∈ List.replicate (must.length - n) false :=
      List.mem_replicate.2 ⟨by omega, rfl⟩
    cases hall false (List.mem_append_left _ hmem)
  · intro hle b hb
    rw [Nat.sub_eq_zero_of_le hle] at hb
    exact List.eq_of_mem_replicate hb

theorem readFields_eq_ok_iff (hkeys : (rows.map (·.1)).Nodup) :
    shape.readFields rows draft = .ok result ↔ Fills rows shape.fields draft result := by
  induction rows generalizing draft with
  | nil =>
    rw [readFields, fills_nil_rows, Except.ok.injEq]
    exact eq_comm
  | cons row rows ih =>
    obtain ⟨k, v⟩ := row
    rw [List.map_cons, List.nodup_cons] at hkeys
    rw [readFields]
    split
    · next field hfield =>
      have hname : field.name = k := by simpa using List.find?_some hfield
      subst hname
      -- The fields take the rows in their own order, so the field of this row comes to the front.
      rw [bind_eq_ok_iff, fills_cons_of_mem h.nodup_names h.apart
        (List.mem_of_find?_eq_some hfield) (lookupField?_eq_none_iff.2 hkeys.1)]
      exact exists_congr fun next => and_congr mapError_eq_ok_iff (ih hkeys.2)
    · next hnone =>
      have hk : k ∉ shape.fields.map (·.name) := by
        intro hmem
        obtain ⟨field, hfield, hname⟩ := List.mem_map.1 hmem
        exact List.find?_eq_none.1 hnone field hfield (decide_eq_true hname)
      rw [h.closed_eq, fills_cons_of_notMem hk, ← ih hkeys.2]
      rfl

end Shape.Regular

theorem lookupField?_zip_of_notMem {names : List String} (items : List Value) (h : key ∉ names) :
    lookupField? key (names.zip items) = none := by
  refine lookupField?_eq_none_iff.2 fun hmem => h ?_
  obtain ⟨row, hrow, rfl⟩ := List.mem_map.1 hmem
  exact (List.of_mem_zip hrow).1

theorem Shape.readItems_eq_ok_iff {shape : Shape σ α} {fields : List (Field σ)}
    (hnodup : (fields.map (·.name)).Nodup) (index : Nat) (items : List Value)
    {draft result : σ} :
    shape.readItems index fields items draft = .ok result ↔
      (∀ f ∈ fields.drop items.length, f.mayBeLeftOff = true) ∧
        Fills ((fields.map (·.name)).zip items) fields draft result := by
  induction fields generalizing index items draft with
  | nil =>
    rw [readItems, Except.ok.injEq, List.drop_nil]
    exact ⟨fun hsame => ⟨nofun, hsame.symm⟩, fun hsame => hsame.2.symm⟩
  | cons field fields ih =>
    rw [List.map_cons, List.nodup_cons] at hnodup
    cases items with
    | nil =>
      -- The list has ended, so all fields that are left leave the draft as it is.
      rw [readItems, List.zip_nil_right, fills_nil_rows, List.length_nil, List.drop_zero,
        List.forall_mem_cons]
      split
      · next hoff =>
        rw [ih hnodup.2, List.zip_nil_right, fills_nil_rows, List.length_nil, List.drop_zero]
        simp only [hoff, true_and]
      · next hoff => exact iff_of_false nofun fun hall => hoff hall.1.1
    | cons item items =>
      have hlookup := lookupField?_cons_self (x := item) (lookupField?_zip_of_notMem items hnodup.1)
      rw [readItems, bind_eq_ok_iff, List.map_cons, List.zip_cons_cons, List.length_cons,
        List.drop_succ_cons]
      simp only [Fills, Field.takes_of_eq_some hlookup, fills_cons_of_notMem hnodup.1,
        mapError_eq_ok_iff, ih hnodup.2]
      constructor
      · rintro ⟨next, hread, hoff, hrest⟩
        exact ⟨hoff, next, hread, hrest⟩
      · rintro ⟨hoff, next, hread, hrest⟩
        exact ⟨next, hread, hoff, hrest⟩

theorem takes_congr {f : Field σ} {rows' : List (String × Value)}
    (h : ∀ key, lookupField? key rows = lookupField? key rows') {draft next : σ} :
    f.Takes rows draft next ↔ f.Takes rows' draft next := by
  rw [Field.Takes, Field.Takes, h]

theorem fills_congr {rows' : List (String × Value)}
    (h : ∀ key, lookupField? key rows = lookupField? key rows') {fields : List (Field σ)}
    {draft result : σ} : Fills rows fields draft result ↔ Fills rows' fields draft result := by
  induction fields generalizing draft with
  | nil => rfl
  | cons f fields ih => exact exists_congr fun next => and_congr (takes_congr h) ih

namespace Shape.Regular
variable {shape : Shape σ α} {must may : List String} (h : shape.Regular must may) {x : α}
include h

theorem structured_record_iff (form : Form) :
    structured form shape (.record rows) = .ok x ↔
      ∃ draft, Fills rows shape.fields shape.draft draft ∧ shape.finish draft = .ok x := by
  rw [structured_record, bind_eq_ok_iff]
  refine exists_congr fun draft => and_congr_left fun _ => ?_
  rw [h.readFields_eq_ok_iff (sorted_sortFields rows).nodup]
  exact fills_congr fun key => lookupField?_sortFields key rows

theorem structured_list_iff {items : List Value} :
    structured .json shape (.list items) = .ok x ↔
      (must.length ≤ items.length ∧ items.length ≤ (must ++ may).length) ∧
        ∃ draft, Fills ((must ++ may).zip items) shape.fields shape.draft draft ∧
          shape.finish draft = .ok x := by
  rw [structured, bind_eq_ok_iff]
  simp only [Shape.readItems_eq_ok_iff h.nodup_names, h.mayBeLeftOff_iff, h.names_eq,
    h.length_fields, true_and]
  constructor
  · rintro ⟨draft, ⟨hleast, hfills⟩, hfinish⟩
    split at hfinish
    · cases hfinish
    · next hmost => exact ⟨⟨hleast, Nat.le_of_not_lt hmost⟩, draft, hfills, hfinish⟩
  · rintro ⟨⟨hleast, hmost⟩, draft, hfills, hfinish⟩
    exact ⟨draft, ⟨hleast, hfills⟩, by rw [if_neg (Nat.not_lt.2 hmost), hfinish]⟩

/-- A structure is read from the values that give rows for its fields, when the fields make a draft
of the rows that can be finished. -/
theorem structured_iff :
    structured .json shape v = .ok x ↔ ∃ rows, v.Gives must may rows ∧
      ∃ draft, Fills rows shape.fields shape.draft draft ∧ shape.finish draft = .ok x := by
  cases v with
  | record fields =>
    rw [h.structured_record_iff]
    simp [Value.Gives, Value.fields?]
  | moment s =>
    have hsame : structured .json shape (.moment s) =
        structured .json shape (.record [(momentKey, .text s)]) := rfl
    rw [hsame, h.structured_record_iff]
    simp [Value.Gives, Value.fields?]
  | list items =>
    rw [h.structured_list_iff]
    simp [Value.Gives, Value.fields?, and_assoc]
  | _ => simp [structured, Value.Gives, Value.fields?, not_ok_wrongType]

/-- A structure is read from what its rows tell. -/
theorem accepts {Told : List (String × Value) → α → Prop}
    (htold : ∀ rows x, (∃ draft, Fills rows shape.fields shape.draft draft ∧
      shape.finish draft = .ok x) ↔ Told rows x) :
    Accepts (structured .json shape) (Spells.inRows must may Told) := by
  intro v x
  rw [h.structured_iff]
  exact exists_congr fun rows => and_congr_right fun _ => htold rows x

omit h in
/-- A structure whose draft needs no finish. -/
theorem accepts_draft {shape : Shape σ σ} (h : shape.Regular must may)
    (hfinish : shape.finish = .ok) {Told : List (String × Value) → σ → Prop}
    (htold : ∀ rows x, Fills rows shape.fields shape.draft x ↔ Told rows x) :
    Accepts (structured .json shape) (Spells.inRows must may Told) := by
  refine h.accepts fun rows x => ?_
  simp only [hfinish, Except.ok.injEq, exists_eq_right, htold rows x]

end Shape.Regular

/-! ## Fields that are put into a draft -/

theorem has_iff_of_eq_some {Means : Value → β → Prop} {x : β} (h : lookupField? key rows = some v) :
    Has rows key Means x ↔ Means v x := by
  simp [Has, h]

theorem not_has_of_eq_none {Means : Value → β → Prop} {x : β} (h : lookupField? key rows = none) :
    ¬ Has rows key Means x := by
  simp [Has, h]

/-- A draft has something in the place that a field must fill. -/
def Spells.given (Means : Value → β → Prop) (v : Value) (o : Option β) : Prop :=
  ∃ x, Means v x ∧ o = some x

theorem mayHave_given_iff {Means : Value → β → Prop} {x : β} :
    MayHave rows key (Spells.given Means) none (some x) ↔ Has rows key Means x := by
  simp [MayHave, Has, Spells.given]

theorem required_eq_ok_iff {name : String} {o : Option β} {x : β} :
    required name o = .ok x ↔ o = some x := by
  cases o with
  | none => exact iff_of_false nofun nofun
  | some y => rw [required, Except.ok.injEq, Option.some.injEq]

section Put
variable {f : Field σ} {name name' : String} {mayBeLeftOff mayBeLeftOff' : Bool}
  {fields : List (Field σ)} {draft result : σ} {reader : Reader β} {reader' : Reader γ}
  {Means : Value → β → Prop}

theorem put_eq_ok_iff {put : β → σ} :
    (do pure (put (← reader v))) = Except.ok result ↔ ∃ x, reader v = .ok x ∧ result = put x := by
  rw [bind_eq_ok_iff]
  exact exists_congr fun x =>
    and_congr_right fun _ => ⟨fun h => (Except.ok.inj h).symm, fun h => h ▸ rfl⟩

/-- Fields that put what they read into different places may be read in either order. -/
theorem Field.apart_of_put {put : β → σ → σ} {put' : γ → σ → σ}
    (h : ∀ x y draft, put' y (put x draft) = put x (put' y draft)) :
    Field.Apart ⟨name, fun v draft => do pure (put (← reader v) draft), mayBeLeftOff⟩
      ⟨name', fun v draft => do pure (put' (← reader' v) draft), mayBeLeftOff'⟩ := by
  intro v w draft result
  simp only [put_eq_ok_iff]
  constructor
  · rintro ⟨_, ⟨x, hx, rfl⟩, y, hy, rfl⟩
    exact ⟨_, ⟨y, hy, rfl⟩, x, hx, h x y draft⟩
  · rintro ⟨_, ⟨y, hy, rfl⟩, x, hx, rfl⟩
    exact ⟨_, ⟨x, hx, rfl⟩, y, hy, (h x y draft).symm⟩

/-- A field that puts what it reads into a draft leaves there what it found if its name is
missing. -/
theorem fills_cons_iff {put : β → σ → σ} {get : σ → β}
    (hread : ∀ v result, f.read v draft = .ok result ↔ ∃ x, Means v x ∧ result = put x draft)
    (hput : put (get draft) draft = draft) :
    Fills rows (f :: fields) draft result ↔
      ∃ x, MayHave rows f.name Means (get draft) x ∧ Fills rows fields (put x draft) result := by
  have htakes : ∀ next, f.Takes rows draft next ↔
      ∃ x, MayHave rows f.name Means (get draft) x ∧ next = put x draft := by
    intro next
    cases hlookup : lookupField? f.name rows with
    | none =>
      simp only [Field.takes_of_eq_none hlookup, MayHave, hlookup, not_has_of_eq_none hlookup,
        true_and, or_false, exists_eq_left, hput]
    | some v =>
      simp only [Field.takes_of_eq_some hlookup, MayHave, hlookup, has_iff_of_eq_some hlookup,
        reduceCtorEq, false_and, false_or, hread]
  simp only [Fills, htakes]
  constructor
  · rintro ⟨_, ⟨x, hx, rfl⟩, hrest⟩
    exact ⟨x, hx, hrest⟩
  · rintro ⟨x, hx, hrest⟩
    exact ⟨_, ⟨x, hx, rfl⟩, hrest⟩

theorem fills_cons_put (hreader : Accepts reader Means) (put : β → σ → σ) (get : σ → β)
    (hput : ∀ draft, put (get draft) draft = draft) :
    Fills rows (⟨name, fun v draft => do pure (put (← reader v) draft), mayBeLeftOff⟩ :: fields)
        draft result ↔
      ∃ x, MayHave rows name Means (get draft) x ∧ Fills rows fields (put x draft) result := by
  refine fills_cons_iff (fun v result => ?_) (hput draft)
  simp only [put_eq_ok_iff, hreader v]

/-- The place of a field in a draft that is empty before the field is read. -/
theorem fills_cons_some (hreader : Accepts reader Means) (put : Option β → σ → σ)
    (get : σ → Option β) (hput : ∀ draft, put (get draft) draft = draft) :
    Fills rows
        (⟨name, fun v draft => do pure (put (some (← reader v)) draft), mayBeLeftOff⟩ :: fields)
        draft result ↔
      ∃ o, MayHave rows name (Spells.given Means) (get draft) o ∧
        Fills rows fields (put o draft) result := by
  refine fills_cons_iff (fun v result => ?_) (hput draft)
  simp only [put_eq_ok_iff, hreader v, Spells.given]
  constructor
  · rintro ⟨x, hx, rfl⟩
    exact ⟨some x, ⟨x, hx, rfl⟩, rfl⟩
  · rintro ⟨_, ⟨x, hx, rfl⟩, rfl⟩
    exact ⟨x, hx, rfl⟩

end Put

end ComponentWiring.Data
