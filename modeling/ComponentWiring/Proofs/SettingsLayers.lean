import ComponentWiring.Proofs.SettingsLeaves
import ComponentWiring.Settings.File

/-! # Layers at single settings

Layers are merged key by key, so at the place of each single setting a merged layer has what the
topmost layer has there that has anything.

* `Settings.Layered.Tidy`, `Settings.Layered.Sectioned`: records with different keys, and records
  in which single settings stand in such records.
* `Settings.Layered.Sectioned.at?_above`: two layers at a single setting.
* `Settings.Layered.topmost_of_foldl`: layers one above the other at a single setting.
* `Settings.Leaf.inEnvironment?`, `Settings.topmost_of_environmentLayer`: what variables give to a
  single setting.
-/

namespace ComponentWiring
set_option autoImplicit false

namespace Settings
open Data

namespace Layered

/-- What stands under a key, if the layer is a record. -/
def field? (key : String) : Layered → Option Layered
  | .record _ fields => lookupField? key fields
  | .leaf _ _ => none

/-- A record with different keys. -/
def Tidy (layer : Layered) : Prop :=
  ∃ origin fields, layer = .record origin fields ∧ (fields.map (·.1)).Nodup

/-! ## Fields of merged layers -/

/-- The fields of an earlier layer with one field of a later one above them. -/
def withField (f : String × Layered) (earlier : List (String × Layered)) :
    List (String × Layered) :=
  match earlier.find? (·.1 = f.1) with
  | some (_, below) => earlier.map fun e => if e.1 = f.1 then (f.1, above f.2 below) else e
  | none => earlier ++ [(f.1, f.2)]

theorem aboveFields_cons (f : String × Layered) (later earlier : List (String × Layered)) :
    aboveFields (f :: later) earlier = aboveFields later (withField f earlier) := by
  rw [aboveFields]
  rfl

section Fields
variable {f : String × Layered} {later earlier : List (String × Layered)} {key : String}
  {below : Layered}

theorem withField_of_found (h : (earlier.map (·.1)).Nodup)
    (hfound : lookupField? f.1 earlier = some below) :
    withField f earlier =
      earlier.map fun e => if e.1 = f.1 then (f.1, above f.2 below) else e := by
  have hfind : earlier.find? (·.1 = f.1) = some (f.1, below) :=
    (find?_eq_some_iff h).2 ⟨rfl, hfound⟩
  rw [withField, hfind]

theorem withField_of_new (hnew : lookupField? f.1 earlier = none) :
    withField f earlier = earlier ++ [(f.1, f.2)] := by
  have hfind : earlier.find? (·.1 = f.1) = none := by
    rw [List.find?_eq_none]
    intro e he hkey
    exact lookupField?_eq_none_iff.1 hnew
      (List.mem_map.2 ⟨e, he, of_decide_eq_true hkey⟩)
  rw [withField, hfind]

theorem nodup_withField (h : (earlier.map (·.1)).Nodup) :
    ((withField f earlier).map (·.1)).Nodup := by
  cases hlookup : lookupField? f.1 earlier with
  | some below => rwa [withField_of_found h hlookup, keys_map_replace]
  | none =>
    rw [withField_of_new hlookup, List.map_append, List.nodup_append]
    refine ⟨h, by simp, ?_⟩
    rintro a ha b hb rfl
    have hlast : a = f.1 := by simpa using hb
    exact lookupField?_eq_none_iff.1 hlookup (hlast ▸ ha)

theorem lookup_withField (h : (earlier.map (·.1)).Nodup) :
    lookupField? key (withField f earlier) =
      if f.1 = key then Option.merge above (some f.2) (lookupField? key earlier)
      else lookupField? key earlier := by
  cases hlookup : lookupField? f.1 earlier with
  | some below =>
    have hmem : f.1 ∈ earlier.map (·.1) := by
      rw [← not_not (a := f.1 ∈ _), ← lookupField?_eq_none_iff, hlookup]
      exact Option.some_ne_none below
    rw [withField_of_found h hlookup, lookupField?_map_replace hmem]
    by_cases hkey : f.1 = key
    · rw [if_pos hkey, if_pos hkey, ← hkey, hlookup]
      rfl
    · rw [if_neg hkey, if_neg hkey]
  | none =>
    rw [withField_of_new hlookup, lookupField?_concat]
    by_cases hkey : f.1 = key
    · rw [if_pos hkey, if_pos hkey, ← hkey, hlookup]
      rfl
    · rw [if_neg hkey, if_neg hkey]

theorem nodup_aboveFields (h : (earlier.map (·.1)).Nodup) :
    ((aboveFields later earlier).map (·.1)).Nodup := by
  induction later generalizing earlier with
  | nil => rwa [aboveFields]
  | cons f later ih =>
    rw [aboveFields_cons]
    exact ih (nodup_withField h)

theorem lookup_aboveFields (hlater : (later.map (·.1)).Nodup) (h : (earlier.map (·.1)).Nodup) :
    lookupField? key (aboveFields later earlier) =
      Option.merge above (lookupField? key later) (lookupField? key earlier) := by
  induction later generalizing earlier with
  | nil =>
    rw [aboveFields]
    cases lookupField? key earlier <;> rfl
  | cons f later ih =>
    rw [List.map_cons, List.nodup_cons] at hlater
    rw [aboveFields_cons, ih hlater.2 (nodup_withField h), lookup_withField h, lookupField?_cons]
    by_cases hkey : f.1 = key
    · rw [if_pos hkey, if_pos hkey, lookupField?_eq_none_iff.2 (hkey ▸ hlater.1), Option.none_or,
        Option.merge_none_left]
    · rw [if_neg hkey, if_neg hkey, Option.or_none]

end Fields

/-! ## Merged layers -/

section Merge
variable {later earlier : Layered} {key : String}

theorem Tidy.above (hlater : later.Tidy) (h : earlier.Tidy) : (later.above earlier).Tidy := by
  obtain ⟨origin, later, rfl, -⟩ := hlater
  obtain ⟨-, earlier, rfl, hearlier⟩ := h
  rw [Layered.above]
  exact ⟨origin, _, rfl, nodup_aboveFields hearlier⟩

theorem Tidy.field?_above (hlater : later.Tidy) (h : earlier.Tidy) :
    (later.above earlier).field? key =
      Option.merge Layered.above (later.field? key) (earlier.field? key) := by
  obtain ⟨origin, later, rfl, hlater⟩ := hlater
  obtain ⟨-, earlier, rfl, hearlier⟩ := h
  rw [Layered.above]
  exact lookup_aboveFields hlater hearlier

/-- What is found in merged layers is the topmost that there is, if it is no record. -/
theorem topmost_of_merge {later earlier : Option Layered} {origin : Origin} {v : Value}
    (h : Option.merge Layered.above later earlier = some (.leaf origin v)) :
    later.or earlier = some (.leaf origin v) := by
  match later, earlier with
  | none, none => cases h
  | none, some _ => exact h
  | some _, none => exact h
  | some (.leaf _ _), some _ => exact h
  | some (.record _ _), some (.leaf _ _) => exact h
  | some (.record _ _), some (.record _ _) =>
    rw [Option.merge, Layered.above] at h
    cases h

end Merge

/-! ## Layers without origins -/

theorem plainFields_eq_map (fields : List (String × Layered)) :
    plainFields fields = fields.map fun f => (f.1, f.2.plain) := by
  induction fields with
  | nil => rw [plainFields, List.map_nil]
  | cons f fields ih => rw [plainFields, List.map_cons, ih]

theorem ofFields_eq_map (origin : Origin) (fields : List (String × Value)) :
    ofFields origin fields = fields.map fun f => (f.1, of origin f.2) := by
  induction fields with
  | nil => rw [ofFields, List.map_nil]
  | cons f fields ih => rw [ofFields, List.map_cons, ih]

theorem Tidy.exists_plain {layer : Layered} (h : layer.Tidy) : ∃ fields,
    layer.plain = .record fields ∧ (fields.map (·.1)).Nodup ∧
      ∀ key, lookupField? key fields = (layer.field? key).map plain := by
  obtain ⟨origin, fields, rfl, hnodup⟩ := h
  refine ⟨plainFields fields, by rw [plain], ?_, fun key => ?_⟩
  · rw [plainFields_eq_map, List.map_map]
    exact hnodup
  · rw [plainFields_eq_map, lookupField?_map, field?]

theorem tidy_of {origin : Origin} {fields : List (String × Value)}
    (h : (fields.map (·.1)).Nodup) : (of origin (.record fields)).Tidy := by
  refine ⟨origin, ofFields origin fields, by rw [of], ?_⟩
  rw [ofFields_eq_map, List.map_map]
  exact h

theorem field?_of (origin : Origin) (fields : List (String × Value)) (key : String) :
    (of origin (.record fields)).field? key = (lookupField? key fields).map (of origin) := by
  rw [of, field?, ofFields_eq_map, lookupField?_map]

theorem of_cases (origin : Origin) (v : Value) :
    (∃ fields, v = .record fields) ∨ (∃ s, v = .moment s) ∨ of origin v = .leaf origin v := by
  cases v with
  | record fields => exact .inl ⟨fields, rfl⟩
  | moment s => exact .inr (.inl ⟨s, rfl⟩)
  | _ => exact .inr (.inr (by simp [of]))

/-- A layer of one value that is no record there has this value. -/
theorem eq_of_of_eq_leaf {origin origin' : Origin} {v v' : Value}
    (h : of origin v = .leaf origin' v') : v = v' := by
  rcases of_cases origin v with ⟨fields, rfl⟩ | ⟨s, rfl⟩ | hleaf
  · rw [of] at h
    cases h
  · rw [of] at h
    cases h
  · rw [hleaf] at h
    cases h
    rfl

/-- A layer whose value has no empty fields itself. -/
def Filled (layer : Layered) : Prop := layer.plain.Filled

theorem filled_leaf {origin : Origin} {v : Value} (h : v.Filled) : (leaf origin v).Filled := by
  rwa [Filled, plain]

theorem filled_record_iff {origin : Origin} {fields : List (String × Layered)} :
    (record origin fields).Filled ↔ ∀ f ∈ fields, f.2.plain ≠ .null := by
  rw [Filled, plain]
  constructor
  · intro h f hf
    refine h _ rfl (f.1, f.2.plain) ?_
    rw [plainFields_eq_map]
    exact List.mem_map_of_mem hf
  · rintro h _ ⟨rfl⟩ f hf
    rw [plainFields_eq_map] at hf
    obtain ⟨g, hg, rfl⟩ := List.mem_map.1 hf
    exact h g hg

theorem plain_above_ne_null {later : Layered} (h : later.plain ≠ .null) (earlier : Layered) :
    (later.above earlier).plain ≠ .null := by
  match later, earlier with
  | .leaf _ _, _ => exact h
  | .record _ _, .leaf _ _ => exact h
  | .record _ _, .record _ _ =>
    rw [above, plain]
    exact Value.noConfusion

theorem ne_null_withField {f : String × Layered} {earlier : List (String × Layered)}
    (hf : f.2.plain ≠ .null) (h : ∀ e ∈ earlier, e.2.plain ≠ .null) :
    ∀ e ∈ withField f earlier, e.2.plain ≠ .null := by
  intro e he
  rw [withField] at he
  split at he
  · obtain ⟨e', he', rfl⟩ := List.mem_map.1 he
    split
    · exact plain_above_ne_null hf _
    · exact h e' he'
  · rcases List.mem_append.1 he with he | he
    · exact h e he
    · rw [List.mem_singleton.1 he]
      exact hf

theorem Filled.above {later earlier : Layered} (hlater : later.Filled) (h : earlier.Filled) :
    (later.above earlier).Filled := by
  match later, earlier with
  | .leaf _ _, _ => exact hlater
  | .record _ _, .leaf _ _ => exact hlater
  | .record _ later, .record _ earlier =>
    rw [Layered.above]
    rw [filled_record_iff] at hlater h ⊢
    induction later generalizing earlier with
    | nil => rwa [aboveFields]
    | cons f later ih =>
      obtain ⟨hf, hlater⟩ := List.forall_mem_cons.1 hlater
      rw [aboveFields_cons]
      exact ih _ hlater (ne_null_withField hf h)

theorem plain_of_ne_null {origin : Origin} {v : Value} (h : v ≠ .null) :
    (of origin v).plain ≠ .null := by
  rcases of_cases origin v with ⟨fields, rfl⟩ | ⟨s, rfl⟩ | hleaf
  · rw [of, plain]
    exact Value.noConfusion
  · rw [of, plain]
    exact Value.noConfusion
  · rwa [hleaf, plain]

theorem filled_of {origin : Origin} {v : Value} (h : v.Filled) : (of origin v).Filled := by
  rcases of_cases origin v with ⟨fields, rfl⟩ | ⟨s, rfl⟩ | hleaf
  · rw [of, filled_record_iff, ofFields_eq_map]
    intro f hf
    obtain ⟨g, hg, rfl⟩ := List.mem_map.1 hf
    exact plain_of_ne_null (h fields rfl g hg)
  · rw [of, filled_record_iff]
    simp [plain]
  · rw [hleaf]
    exact filled_leaf h

/-! ## Layers at single settings -/

/-- What a layer has in the place of a single setting. -/
def at? (leaf : Leaf) (layer : Layered) : Option Layered :=
  (layer.field? leaf.sectionKey).bind (field? leaf.key)

/-- A record with different keys, in which single settings stand in such records and have no empty
fields. -/
structure Sectioned (layer : Layered) : Prop where
  tidy : layer.Tidy
  sections : ∀ (leaf : Leaf) (inner : Layered), layer.field? leaf.sectionKey = some inner →
    inner.Tidy
  filled : ∀ (leaf : Leaf) (inner : Layered), at? leaf layer = some inner → inner.Filled

namespace Sectioned
variable {later earlier layer : Layered}

/-- In the place of a single setting merged layers have the merged layers of both. -/
theorem at?_above (hlater : later.Sectioned) (h : earlier.Sectioned) (leaf : Leaf) :
    at? leaf (later.above earlier) =
      Option.merge Layered.above (at? leaf later) (at? leaf earlier) := by
  rw [at?, at?, at?, hlater.tidy.field?_above h.tidy]
  cases hl : later.field? leaf.sectionKey with
  | none => simp
  | some inLater =>
    cases he : earlier.field? leaf.sectionKey with
    | none => simp
    | some inEarlier =>
      exact (hlater.sections leaf inLater hl).field?_above (h.sections leaf inEarlier he)

theorem above (hlater : later.Sectioned) (h : earlier.Sectioned) :
    (later.above earlier).Sectioned where
  tidy := hlater.tidy.above h.tidy
  sections := by
    intro leaf inner hinner
    rw [hlater.tidy.field?_above h.tidy, Option.merge_eq_some_iff] at hinner
    rcases hinner with ⟨hl, -⟩ | ⟨-, he⟩ | ⟨inLater, inEarlier, hl, he, rfl⟩
    · exact hlater.sections leaf inner hl
    · exact h.sections leaf inner he
    · exact (hlater.sections leaf inLater hl).above (h.sections leaf inEarlier he)
  filled := by
    intro leaf inner hinner
    rw [hlater.at?_above h, Option.merge_eq_some_iff] at hinner
    rcases hinner with ⟨hl, -⟩ | ⟨-, he⟩ | ⟨inLater, inEarlier, hl, he, rfl⟩
    · exact hlater.filled leaf inner hl
    · exact h.filled leaf inner he
    · exact (hlater.filled leaf inLater hl).above (h.filled leaf inEarlier he)

/-- What the settings without origins have in the place of a single setting. -/
theorem at?_plain (h : layer.Sectioned) (leaf : Leaf) :
    leaf.at? layer.plain = (at? leaf layer).map plain := by
  obtain ⟨fields, hplain, -, hlookup⟩ := h.tidy.exists_plain
  rw [Leaf.at?, at?, hplain, Value.field?, hlookup]
  cases hinner : layer.field? leaf.sectionKey with
  | none => rfl
  | some inner =>
    obtain ⟨innerFields, hinnerPlain, -, hinnerLookup⟩ :=
      (h.sections leaf inner hinner).exists_plain
    rw [Option.map_some, Option.bind_some, Option.bind_some, hinnerPlain, Value.field?,
      hinnerLookup]

end Sectioned

/-- What layers one above the other have in the place of a single setting, if it is no record: it
is from the last one that has anything there, or from below them. -/
theorem topmost_of_foldl {layers : List Layered} {base : Layered} {leaf : Leaf} {origin : Origin}
    {v : Value} (hlayers : ∀ layer ∈ layers, layer.Sectioned) (hbase : base.Sectioned)
    (h : at? leaf (layers.foldl (fun earlier later => later.above earlier) base) =
      some (.leaf origin v)) :
    (layers.reverse.findSome? (at? leaf)).or (at? leaf base) = some (.leaf origin v) := by
  induction layers generalizing base with
  | nil => simpa using h
  | cons layer layers ih =>
    obtain ⟨hlayer, hlayers⟩ := List.forall_mem_cons.1 hlayers
    have hrest := ih hlayers (hlayer.above hbase) h
    rw [List.reverse_cons, List.findSome?_append]
    cases hfound : layers.reverse.findSome? (at? leaf) with
    | some found =>
      rw [hfound] at hrest
      exact hrest
    | none =>
      rw [hfound, Option.none_or, hlayer.at?_above hbase] at hrest
      have htop := topmost_of_merge hrest
      simpa using htop

theorem none_of_foldl {layers : List Layered} {base : Layered} {leaf : Leaf}
    (hlayers : ∀ layer ∈ layers, layer.Sectioned) (hbase : base.Sectioned)
    (h : at? leaf (layers.foldl (fun earlier later => later.above earlier) base) = none) :
    (∀ layer ∈ layers, at? leaf layer = none) ∧ at? leaf base = none := by
  induction layers generalizing base with
  | nil => exact ⟨fun _ hlayer => absurd hlayer List.not_mem_nil, h⟩
  | cons layer layers ih =>
    obtain ⟨hlayer, hlayers⟩ := List.forall_mem_cons.1 hlayers
    obtain ⟨hmore, hfirst⟩ := ih hlayers (hlayer.above hbase) h
    rw [hlayer.at?_above hbase, Option.merge_eq_none_iff] at hfirst
    exact ⟨List.forall_mem_cons.2 ⟨hfirst.1, hmore⟩, hfirst.2⟩

theorem sectioned_foldl {layers : List Layered} {base : Layered}
    (hlayers : ∀ layer ∈ layers, layer.Sectioned) (hbase : base.Sectioned) :
    (layers.foldl (fun earlier later => later.above earlier) base).Sectioned := by
  induction layers generalizing base with
  | nil => exact hbase
  | cons layer layers ih =>
    obtain ⟨hlayer, hlayers⟩ := List.forall_mem_cons.1 hlayers
    exact ih hlayers (hlayer.above hbase)

/-! ## Layers of data -/

section Of
variable {origin : Origin} {fields : List (String × Value)}
  (hrecords : ∀ (leaf : Leaf) (v : Value), lookupField? leaf.sectionKey fields = some v →
    ∃ inner, v = .record inner)
include hrecords

theorem at?_of (leaf : Leaf) :
    at? leaf (of origin (.record fields)) = (leaf.at? (.record fields)).map (of origin) := by
  rw [at?, Leaf.at?, field?_of, Value.field?]
  cases hlookup : lookupField? leaf.sectionKey fields with
  | none => rfl
  | some v =>
    obtain ⟨inner, rfl⟩ := hrecords leaf v hlookup
    exact field?_of origin inner leaf.key

theorem sectioned_of (hnodup : (fields.map (·.1)).Nodup)
    (hinner : ∀ (leaf : Leaf) (inner : List (String × Value)),
      lookupField? leaf.sectionKey fields = some (.record inner) → (inner.map (·.1)).Nodup)
    (hfilled : ∀ (leaf : Leaf) (v : Value), leaf.at? (.record fields) = some v → v.Filled) :
    (of origin (.record fields)).Sectioned where
  tidy := tidy_of hnodup
  sections := by
    intro leaf inner hlookup
    rw [field?_of, Option.map_eq_some_iff] at hlookup
    obtain ⟨v, hv, rfl⟩ := hlookup
    obtain ⟨innerFields, rfl⟩ := hrecords leaf v hv
    exact tidy_of (hinner leaf innerFields hv)
  filled := by
    intro leaf inner hat
    rw [at?_of hrecords, Option.map_eq_some_iff] at hat
    obtain ⟨v, hv, rfl⟩ := hat
    exact filled_of (hfilled leaf v hv)

theorem sectioned_of_whole (hwhole : (Value.record fields).Whole) :
    (of origin (.record fields)).Sectioned := by
  refine sectioned_of hrecords hwhole.nodup_keys
    (fun leaf inner hlookup => (hwhole.of_lookup hlookup).nodup_keys) fun leaf v hv => ?_
  rw [Leaf.at?, Option.bind_eq_some_iff] at hv
  obtain ⟨w, hw, hv⟩ := hv
  obtain ⟨inner, rfl⟩ := hrecords leaf w hw
  exact ((hwhole.of_lookup hw).of_lookup hv).filled

end Of

end Layered

/-! ## Variables -/

/-- The way that a variable's name stands for, if it has the beginning and stands for one. -/
def wayOfVariable? (start name : String) : Option (List String) :=
  if beginsWith start (Text.trim name) then
    wayOf? (String.ofList ((Text.trim name).toList.drop start.toList.length))
  else none

theorem variableLayer?_eq (start : String) (given : String × String) :
    variableLayer? start given =
      (wayOfVariable? start given.1).map
        (nested (.environment start) (valueOf given.2)) := by
  rw [variableLayer?, wayOfVariable?]
  split <;> rfl

namespace Leaf

/-- The way to a single setting. -/
def way (leaf : Leaf) : List String := [leaf.sectionKey, leaf.key]

/-- A way that does not lead through or past the place of a single setting: it stands for a single
setting, or for a place apart from all of them. -/
def Apart (way : List String) : Prop :=
  ∀ leaf : Leaf, way <+: leaf.way ∨ leaf.way <+: way → way = leaf.way

end Leaf

namespace Layered
variable {origin : Origin} {v : Value} {way : List String}

theorem tidy_field {key : String} {inner : Layered} : (field origin key inner).Tidy :=
  ⟨origin, [(key, inner)], rfl, List.nodup_singleton key⟩

theorem field?_field (key other : String) (inner : Layered) :
    (field origin key inner).field? other = if key = other then some inner else none := by
  rw [field, field?, lookupField?]
  by_cases h : key = other <;> simp [h]

/-- Such a way has a first key, and leads on behind the key of a section. -/
theorem exists_cons_of_apart (hapart : Leaf.Apart way) : ∃ key rest, way = key :: rest ∧
    ∀ leaf : Leaf, leaf.sectionKey = key → ∃ key' rest', rest = key' :: rest' := by
  match way with
  | [] => cases hapart .level (.inl List.nil_prefix)
  | [key] =>
    refine ⟨key, [], rfl, ?_⟩
    rintro leaf rfl
    cases hapart leaf (.inl ⟨[leaf.key], rfl⟩)
  | key :: key' :: rest => exact ⟨key, key' :: rest, rfl, fun _ _ => ⟨key', rest, rfl⟩⟩

theorem at?_nested (hapart : Leaf.Apart way) (leaf : Leaf) :
    at? leaf (nested origin v way) = if way = leaf.way then some (of origin v) else none := by
  obtain ⟨key, rest, rfl, hrest⟩ := exists_cons_of_apart hapart
  rw [nested, at?, field?_field]
  by_cases hkey : key = leaf.sectionKey
  · obtain ⟨key', rest', rfl⟩ := hrest leaf hkey.symm
    rw [if_pos hkey, Option.bind_some, nested, field?_field]
    by_cases hkey' : key' = leaf.key
    · have hway : key :: key' :: rest' = leaf.way :=
        hapart leaf (.inr ⟨rest', by rw [hkey, hkey']; rfl⟩)
      obtain rfl : rest' = [] := by
        rw [Leaf.way] at hway
        simpa [hkey, hkey'] using hway
      rw [if_pos hkey', if_pos hway, nested]
    · rw [if_neg hkey', if_neg]
      intro hway
      exact hkey' (List.cons.inj (List.cons.inj hway).2).1
  · rw [if_neg hkey, if_neg]
    · rfl
    · intro hway
      exact hkey (List.cons.inj hway).1

theorem sectioned_nested (hapart : Leaf.Apart way) (hgiven : Given v) :
    (nested origin v way).Sectioned where
  tidy := by
    obtain ⟨key, rest, rfl, -⟩ := exists_cons_of_apart hapart
    exact tidy_field
  sections := by
    intro leaf inner hinner
    obtain ⟨key, rest, rfl, hrest⟩ := exists_cons_of_apart hapart
    rw [nested, field?_field] at hinner
    split at hinner
    · next hkey =>
      obtain ⟨key', rest', rfl⟩ := hrest leaf hkey.symm
      cases hinner
      exact tidy_field
    · cases hinner
  filled := by
    intro leaf inner hinner
    rw [at?_nested hapart] at hinner
    split at hinner
    · cases hinner
      exact filled_of hgiven.filled
    · cases hinner

theorem sectioned_nothing (origin : Origin) : (record origin []).Sectioned where
  tidy := ⟨origin, [], rfl, List.nodup_nil⟩
  sections := fun _ _ h => by cases h
  filled := fun _ _ h => by cases h

end Layered

/-- The value that variables give to a single setting: that of the last one that stands for it. -/
def Leaf.inEnvironment? (start : String) (environment : Environment) (leaf : Leaf) :
    Option Value :=
  (environment.reverse.find? fun given => wayOfVariable? start given.1 = some leaf.way).map
    fun given => valueOf given.2

section Environment
variable {start : String} {environment : Environment}
  (hapart : ∀ given ∈ environment, ∀ way, wayOfVariable? start given.1 = some way →
    Leaf.Apart way)
include hapart

theorem findSome?_variables (leaf : Leaf) :
    (environment.filterMap (variableLayer? start)).findSome? (Layered.at? leaf) =
      (environment.find? fun given => wayOfVariable? start given.1 = some leaf.way).map
        fun given => Layered.of (.environment start) (valueOf given.2) := by
  induction environment with
  | nil => rfl
  | cons given environment ih =>
    obtain ⟨hgiven, hmore⟩ := List.forall_mem_cons.1 hapart
    have hrest := ih hmore
    rw [List.filterMap_cons, List.find?_cons, variableLayer?_eq]
    cases hway : wayOfVariable? start given.1 with
    | none => simpa using hrest
    | some way =>
      have hat : Layered.at? leaf (nested (.environment start) (valueOf given.2) way) =
          if way = leaf.way then some (.of (.environment start) (valueOf given.2)) else none :=
        Layered.at?_nested (hgiven way hway) leaf
      rw [Option.map_some]
      dsimp only
      rw [List.findSome?_cons, hat]
      by_cases hsame : way = leaf.way
      · simp [hsame]
      · simpa [hsame] using hrest

theorem sectioned_variables :
    ∀ layer ∈ environment.filterMap (variableLayer? start), layer.Sectioned := by
  intro layer hlayer
  obtain ⟨given, hgiven, hlayer⟩ := List.mem_filterMap.1 hlayer
  rw [variableLayer?_eq, Option.map_eq_some_iff] at hlayer
  obtain ⟨way, hway, rfl⟩ := hlayer
  exact Layered.sectioned_nested (hapart given hgiven way hway) (given_valueOf given.2)

theorem sectioned_environmentLayer : (environmentLayer start environment).Sectioned :=
  Layered.sectioned_foldl (sectioned_variables hapart) (Layered.sectioned_nothing _)

/-- What is found at a single setting above all variables, if it is no record, is of the last
variable that stands for it, or from below. -/
theorem topmost_of_environmentLayer {below : Layered} (hbelow : below.Sectioned) {leaf : Leaf}
    {origin : Origin} {v : Value}
    (h : Layered.at? leaf ((environmentLayer start environment).above below) =
      some (.leaf origin v)) :
    ((leaf.inEnvironment? start environment).map (Layered.of (.environment start))).or
      (Layered.at? leaf below) = some (.leaf origin v) := by
  rw [(sectioned_environmentLayer hapart).at?_above hbelow] at h
  have htop := Layered.topmost_of_merge h
  have hfound : (leaf.inEnvironment? start environment).map (Layered.of (.environment start)) =
      ((environment.filterMap (variableLayer? start)).reverse.findSome? (Layered.at? leaf)) := by
    have hreverse : ∀ given ∈ environment.reverse, ∀ way,
        wayOfVariable? start given.1 = some way → Leaf.Apart way := fun given hgiven =>
      hapart given (List.mem_reverse.1 hgiven)
    rw [← List.filterMap_reverse, findSome?_variables hreverse, Leaf.inEnvironment?, Option.map_map]
    rfl
  rw [hfound]
  cases hat : Layered.at? leaf (environmentLayer start environment) with
  | some found =>
    rw [hat] at htop
    cases htop
    have hvariables := Layered.topmost_of_foldl (sectioned_variables hapart)
      (Layered.sectioned_nothing (.environment start)) hat
    have hnothing : Layered.at? leaf (.record (.environment start) []) = none := rfl
    rw [hnothing, Option.or_none] at hvariables
    rw [hvariables]
    rfl
  | none =>
    obtain ⟨hnone, -⟩ := Layered.none_of_foldl (sectioned_variables hapart)
      (Layered.sectioned_nothing (.environment start)) hat
    rw [hat, Option.none_or] at htop
    rw [List.findSome?_eq_none_iff.2 fun layer hlayer => hnone layer (List.mem_reverse.1 hlayer),
      Option.none_or]
    exact htop

end Environment

end Settings

end ComponentWiring
