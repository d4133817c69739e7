import ComponentWiring.Proofs.ComponentRows
import ComponentWiring.Proofs.StatementLines
import ComponentWiring.Settings.Literal

/-! # Values without empty fields

Nothing that can be written in a TOML text or in a variable stands for an empty field, and the
tables of a TOML text have different keys at every depth.

* `Data.Value.Whole`: values whose records have different keys and no empty fields.
* `Data.Value.Filled`: values that have no empty fields themselves.
* `Toml.whole_read`: the fields of a TOML text are whole.
* `Settings.given_valueOf`: the value of a variable is filled.
-/

namespace ComponentWiring
set_option autoImplicit false

namespace Data

/-- A value that is neither empty nor a record. -/
def Value.isAtom : Value → Bool
  | .null => false
  | .record _ => false
  | _ => true

/-- A value that is not empty, and whose records, as far as they stand in records only, have
different keys and no empty fields. -/
inductive Value.Whole : Value → Prop
  | atom {v : Value} (h : v.isAtom = true) : Whole v
  | record {fields : List (String × Value)} (nodup : (fields.map (·.1)).Nodup)
      (fields_whole : ∀ f ∈ fields, Whole f.2) : Whole (.record fields)

/-- A value that is no record with an empty field. -/
def Value.Filled (v : Value) : Prop :=
  ∀ fields, v = .record fields → ∀ f ∈ fields, f.2 ≠ .null

theorem Value.ne_null_of_isAtom {v : Value} (h : v.isAtom = true) : v ≠ .null := by
  rintro rfl
  cases h

theorem Value.filled_of_isAtom {v : Value} (h : v.isAtom = true) : v.Filled := by
  rintro fields rfl
  cases h

namespace Value.Whole
variable {v : Value} {fields : List (String × Value)}

theorem ne_null (h : v.Whole) : v ≠ .null := by
  cases h with
  | atom hatom => exact ne_null_of_isAtom hatom
  | record => exact Value.noConfusion

theorem nodup_keys (h : (Value.record fields).Whole) : (fields.map (·.1)).Nodup := by
  cases h with
  | atom hatom => cases hatom
  | record nodup => exact nodup

theorem of_mem (h : (Value.record fields).Whole) : ∀ f ∈ fields, f.2.Whole := by
  cases h with
  | atom hatom => cases hatom
  | record _ fields_whole => exact fields_whole

theorem of_lookup {key : String} (h : (Value.record fields).Whole)
    (hv : lookupField? key fields = some v) : v.Whole :=
  h.of_mem (key, v) ((lookupField?_eq_some_iff h.nodup_keys).1 hv)

theorem filled (h : v.Whole) : v.Filled := by
  rintro fields rfl f hf
  exact (h.of_mem f hf).ne_null

end Value.Whole

end Data

/-! ## Parsers -/

namespace Text

/-- A parser all of whose results have a property. -/
def Gives {α : Type} (P : α → Prop) (parse : Parser α) : Prop :=
  ∀ s x rest, parse s = some (x, rest) → P x

theorem gives_separated {α : Type} {P : α → Prop} {item : Parser α} (hitem : Gives P item)
    (gap : List Char → Option (List Char)) (close : Char) (trailing more : Bool) (limit : Nat) :
    Gives (fun xs => ∀ x ∈ xs, P x) (separated item gap close trailing more limit) := by
  induction limit generalizing more with
  | zero =>
    intro s xs rest h
    rw [separated] at h
    cases h
  | succ limit ih =>
    intro s xs rest h
    rw [separated] at h
    simp only [Option.bind_eq_bind, Option.bind_eq_some_iff] at h
    obtain ⟨s₁, -, h⟩ := h
    split at h
    · cases h
      exact fun x hx => absurd hx List.not_mem_nil
    · simp only [Option.bind_eq_some_iff] at h
      obtain ⟨⟨x, s₂⟩, hx, s₃, -, h⟩ := h
      have hfirst := hitem s₁ x s₂ hx
      split at h
      · cases h
      · split at h
        · cases h
          exact List.forall_mem_singleton.2 hfirst
        · split at h
          · simp only [Option.bind_eq_some_iff] at h
            obtain ⟨⟨ys, r'⟩, hys, h⟩ := h
            cases h
            exact List.forall_mem_cons.2 ⟨hfirst, ih _ _ ys r' hys⟩
          · cases h

end Text

namespace Toml
open Text Data

/-! ## Scalars -/

theorem isAtom_integer? {n : Int} {v : Value} (h : integer? n = some v) : v.isAtom = true := by
  unfold integer? at h
  split at h
  · cases h
    rfl
  · cases h

theorem isAtom_real? {edition : Edition} {x : Decimal.Binary64} {v : Value}
    (h : real? edition x = some v) : v.isAtom = true := by
  unfold real? at h
  split at h
  · split at h
    · cases h
      rfl
    · cases h
  · cases h
    rfl

theorem gives_based? (base : Nat) : Gives (fun v => v.isAtom = true) (based? base) := by
  intro s v rest h
  simp only [based?, Option.bind_eq_bind, Option.bind_eq_some_iff] at h
  obtain ⟨⟨ds, r⟩, -, v', hv, h⟩ := h
  cases h
  exact isAtom_integer? hv

theorem result_of_bind {α β : Type} {read : Option β} {r rest : α} {x : β}
    (h : (read.bind fun x => pure (x, r)) = some (x, rest)) : read = some x := by
  rw [Option.bind_eq_some_iff] at h
  obtain ⟨y, hy, h⟩ := h
  cases h
  exact hy

theorem gives_decimal? (edition : Edition) :
    Gives (fun v => v.isAtom = true) (decimal? edition) := by
  intro s v rest h
  simp only [decimal?, Option.bind_eq_bind, Option.bind_eq_some_iff] at h
  obtain ⟨⟨whole, r⟩, -, h⟩ := h
  dsimp only at h
  split at h
  · cases h
  split at h
  · rw [Option.bind_eq_some_iff] at h
    obtain ⟨⟨fraction, r₂⟩, -, h⟩ := h
    dsimp only at h
    split at h
    · exact isAtom_real? (result_of_bind h)
    · split at h
      · exact isAtom_integer? (result_of_bind h)
      · exact isAtom_real? (result_of_bind h)
  · dsimp only [Option.bind_some] at h
    split at h
    · exact isAtom_real? (result_of_bind h)
    · split at h
      · exact isAtom_integer? (result_of_bind h)
      · exact isAtom_real? (result_of_bind h)

theorem gives_number? (edition : Edition) :
    Gives (fun v => v.isAtom = true) (number? edition) := by
  intro s v rest h
  unfold number? at h
  split at h
  · exact gives_based? 16 _ _ _ h
  · exact gives_based? 8 _ _ _ h
  · exact gives_based? 2 _ _ _ h
  · split at h
    · cases h
      rfl
    · cases h
      rfl
    · exact gives_decimal? edition _ _ _ h

theorem gives_scalar? (edition : Edition) :
    Gives (fun v => v.isAtom = true) (scalar? edition) := by
  intro s v rest h
  unfold scalar? at h
  split at h
  · cases h
    rfl
  · cases h
    rfl
  · split at h
    · simp only [moment?, Option.bind_eq_bind, Option.bind_eq_some_iff] at h
      obtain ⟨r, -, h⟩ := h
      cases h
      rfl
    · exact gives_number? edition _ _ _ h

theorem gives_leaf? (edition : Edition) :
    Gives (fun v => v.isAtom = true) (value?.leaf? edition) := by
  intro s v rest h
  rw [value?.leaf?] at h
  split at h
  · cases h
    rfl
  · split at h
    · cases h
    · exact gives_scalar? edition _ _ _ h

/-! ## Tables -/

/-- Entries that make a whole record. -/
structure WholeEntries (entries : Entries) : Prop where
  nodup : (entries.map (·.1)).Nodup
  whole : ∀ e ∈ entries, e.2.toValue.Whole

theorem wholeEntries_nil : WholeEntries [] := ⟨List.nodup_nil, fun _ h => absurd h List.not_mem_nil⟩

theorem whole_finished_iff {entries : Entries} :
    (Value.record (finished entries)).Whole ↔ WholeEntries entries := by
  have hkeys : (finished entries).map (·.1) = entries.map (·.1) := by
    rw [finished_eq_map, List.map_map]
    rfl
  constructor
  · intro h
    refine ⟨hkeys ▸ h.nodup_keys, fun e he => h.of_mem (e.1, e.2.toValue) ?_⟩
    rw [finished_eq_map]
    exact List.mem_map_of_mem he
  · intro h
    refine .record (hkeys ▸ h.nodup) fun f hf => ?_
    rw [finished_eq_map] at hf
    obtain ⟨e, he, rfl⟩ := List.mem_map.1 hf
    exact h.whole e he

namespace WholeEntries
variable {entries : Entries} {key : String} {item : Item}

theorem append (h : WholeEntries entries) (hnone : entry? key entries = none)
    (hitem : item.toValue.Whole) : WholeEntries (entries ++ [(key, item)]) where
  nodup := (changes_append hnone item).nodup h.nodup
  whole := by
    intro e he
    rcases List.mem_append.1 he with he | he
    · exact h.whole e he
    · rw [List.mem_singleton.1 he]
      exact hitem

theorem replace {old : Item} (h : WholeEntries entries) (hfound : entry? key entries = some old)
    (hitem : item.toValue.Whole) : WholeEntries (Toml.replace key item entries) where
  nodup := (changes_replace hfound item).nodup h.nodup
  whole := by
    intro e he
    obtain ⟨e', he', rfl⟩ := List.mem_map.1 he
    split
    · exact hitem
    · exact h.whole e' he'

/-- A change at the end of a path leaves whole tables behind if it does so itself. Tables in a row
make a list, of which nothing is asked. -/
theorem descend {way : Origin} {change : Bool → Entries → Option Entries}
    (hchange : ∀ byKey inner inner', WholeEntries inner → change byKey inner = some inner' →
      WholeEntries inner')
    {path : List String} {byKey : Bool} {entries' : Entries} (h : WholeEntries entries)
    (hmade : Toml.descend way change path byKey entries = some entries') :
    WholeEntries entries' := by
  induction path generalizing byKey entries entries' with
  | nil => exact hchange byKey entries entries' h hmade
  | cons key path ih =>
    rw [Toml.descend] at hmade
    split at hmade
    · next hnone =>
      simp only [Option.bind_eq_bind, Option.bind_eq_some_iff] at hmade
      obtain ⟨inner, hinner, hmade⟩ := hmade
      cases hmade
      exact h.append hnone (whole_finished_iff.2 (ih wholeEntries_nil hinner))
    · cases hmade
    · next origin inner hfound =>
      split at hmade
      · cases hmade
      · simp only [Option.bind_eq_bind, Option.bind_eq_some_iff] at hmade
        obtain ⟨inner', hinner, hmade⟩ := hmade
        cases hmade
        have hwhole := whole_finished_iff.1 (h.whole _ (mem_of_found hfound))
        exact h.replace hfound (whole_finished_iff.2 (ih hwhole hinner))
    · next done last hfound =>
      simp only [Option.bind_eq_bind, Option.bind_eq_some_iff] at hmade
      obtain ⟨last', -, hmade⟩ := hmade
      cases hmade
      exact h.replace hfound (.atom rfl)

variable {entries' : Entries} (h : WholeEntries entries)
include h

theorem addPair {path : List String} {v : Value} (hv : v.Whole)
    (hmade : Toml.addPair path key v entries = some entries') : WholeEntries entries' := by
  refine h.descend (fun byKey inner inner' hinner hadd => ?_) hmade
  split at hadd
  · cases hadd
  · rw [addValue] at hadd
    split at hadd
    · next hnone =>
      cases hadd
      exact hinner.append hnone hv
    · cases hadd

theorem openHere (hmade : Toml.openHere key entries = some entries') :
    WholeEntries entries' := by
  rw [Toml.openHere] at hmade
  split at hmade
  · next hnone =>
    cases hmade
    exact h.append hnone (whole_finished_iff.2 wholeEntries_nil)
  · next inner hfound =>
    cases hmade
    exact h.replace hfound (h.whole _ (mem_of_found hfound))
  · cases hmade

theorem openElementHere (hmade : Toml.openElementHere key entries = some entries') :
    WholeEntries entries' := by
  rw [Toml.openElementHere] at hmade
  split at hmade
  · next hnone =>
    cases hmade
    exact h.append hnone (.atom rfl)
  · next hfound =>
    cases hmade
    exact h.replace hfound (.atom rfl)
  · cases hmade

end WholeEntries

theorem whole_inlineTable? {pairs : List (List String × String × Value)} {v : Value}
    (hpairs : ∀ p ∈ pairs, p.2.2.Whole) (h : inlineTable? pairs = some v) : v.Whole := by
  simp only [inlineTable?, Option.bind_eq_bind, Option.bind_eq_some_iff] at h
  obtain ⟨entries, hentries, h⟩ := h
  cases h
  have hmade : ∀ {before after}, WholeEntries before →
      pairs.foldlM (fun entries p => addPair p.1 p.2.1 p.2.2 entries) before = some after →
      WholeEntries after := by
    clear hentries
    induction pairs with
    | nil =>
      rintro before after hbefore ⟨⟩
      exact hbefore
    | cons p pairs ih =>
      intro before after hbefore hmade
      obtain ⟨hp, hpairs⟩ := List.forall_mem_cons.1 hpairs
      rw [List.foldlM_cons] at hmade
      simp only [Option.bind_eq_bind, Option.bind_eq_some_iff] at hmade
      obtain ⟨next, hnext, hmade⟩ := hmade
      exact ih hpairs (hbefore.addPair hp hnext) hmade
  exact whole_finished_iff.2 (hmade wholeEntries_nil hentries)

theorem gives_inlinePair? (edition : Edition) {value : Parser Value}
    (hvalue : Gives Value.Whole value) :
    Gives (fun p : List String × String × Value => p.2.2.Whole) (inlinePair? edition value) := by
  intro s p rest h
  simp only [inlinePair?, Option.bind_eq_bind, Option.bind_eq_some_iff] at h
  obtain ⟨⟨⟨path, key⟩, s₁⟩, -, h⟩ := h
  dsimp only at h
  split at h
  · rw [Option.bind_eq_some_iff] at h
    obtain ⟨⟨v, s₂⟩, hv, h⟩ := h
    cases h
    exact hvalue _ _ _ hv
  · cases h

theorem gives_value? (edition : Edition) (depth : Nat) :
    Gives Value.Whole (value? edition depth) := by
  have hleaf : Gives Value.Whole (value?.leaf? edition) := fun s v rest h =>
    .atom (gives_leaf? edition s v rest h)
  -- an inline table holds values of the next depth
  induction depth with
  | zero =>
    intro s v rest h
    rw [value?] at h
    split at h
    · cases h
    · exact hleaf s v rest h
  | succ depth ih =>
    intro s v rest h
    unfold value? at h
    split at h
    · rw [Option.map_eq_some_iff] at h
      obtain ⟨⟨items, r⟩, -, h⟩ := h
      cases h
      exact .atom rfl
    · simp only [Option.bind_eq_bind, Option.bind_eq_some_iff] at h
      obtain ⟨⟨pairs, r⟩, hpairs, v', hv, h⟩ := h
      cases h
      have hwhole := gives_separated (gives_inlinePair? edition ih) _ _ _ _ _ _ _ _ hpairs
      exact whole_inlineTable? hwhole hv
    · exact hleaf s v rest h

/-! ## Texts -/

/-- A statement whose value, if it has one, is whole. -/
def Statement.Whole : Statement → Prop
  | .pair _ _ v => v.Whole
  | _ => True

theorem whole_statement? {edition : Edition} {s rest : List Char} {statement : Statement}
    (h : statement? edition s = some (statement, rest)) : statement.Whole := by
  rcases statement?_cases h with ⟨_, _, _, -, rfl, -⟩ | ⟨_, _, _, -, rfl, -⟩ |
    ⟨path, key, v, rfl, hpair⟩
  · trivial
  · trivial
  · exact gives_inlinePair? edition (gives_value? edition _) _ _ _ hpair

theorem wholeEntries_add? {a b : Assembly} {statement : Statement} (h : WholeEntries a.entries)
    (hstatement : statement.Whole) (hadd : a.add? statement = some b) :
    WholeEntries b.entries := by
  cases statement with
  | pair path key v =>
    simp only [Assembly.add?, Option.bind_eq_bind, Option.bind_eq_some_iff] at hadd
    obtain ⟨entries, hentries, hadd⟩ := hadd
    cases hadd
    exact h.descend (fun _ _ _ hinner => hinner.addPair hstatement) hentries
  | table path key =>
    simp only [Assembly.add?, Option.bind_eq_bind, Option.bind_eq_some_iff] at hadd
    obtain ⟨entries, hentries, hadd⟩ := hadd
    cases hadd
    exact h.descend (fun _ _ _ hinner => hinner.openHere) hentries
  | element path key =>
    simp only [Assembly.add?, Option.bind_eq_bind, Option.bind_eq_some_iff] at hadd
    obtain ⟨entries, hentries, hadd⟩ := hadd
    cases hadd
    exact h.descend (fun _ _ _ hinner => hinner.openElementHere) hentries

theorem wholeEntries_foldlM {statements : List Statement} {a b : Assembly}
    (h : WholeEntries a.entries) (hstatements : ∀ statement ∈ statements, statement.Whole)
    (hmade : statements.foldlM Assembly.add? a = some b) : WholeEntries b.entries := by
  induction statements generalizing a with
  | nil =>
    cases hmade
    exact h
  | cons statement statements ih =>
    obtain ⟨hfirst, hmore⟩ := List.forall_mem_cons.1 hstatements
    rw [List.foldlM_cons] at hmade
    simp only [Option.bind_eq_bind, Option.bind_eq_some_iff] at hmade
    obtain ⟨next, hnext, hmade⟩ := hmade
    exact ih (wholeEntries_add? h hfirst hnext) hmore hmade

/-- The fields of a TOML text have different keys and no empty values, at every depth. -/
theorem whole_read {edition : Edition} {text : String} {fields : List (String × Value)}
    (h : read edition text = .ok fields) : (Value.record fields).Whole := by
  have hall : ∃ all, statements edition text = .ok all := by
    rw [read] at h
    exact (bind_eq_ok_iff.1 h).imp fun _ => And.left
  obtain ⟨all, hall⟩ := hall
  obtain ⟨made, hmade, rfl⟩ := exists_made hall h
  have hstatements : ∀ statement ∈ all.map (·.2), statement.Whole := by
    intro statement hstatement
    obtain ⟨e, he, rfl⟩ := List.mem_map.1 hstatement
    obtain ⟨front, s, rest, hstarts⟩ := (starts_of_statements hall).1 e he
    exact whole_statement? hstarts.statement_eq
  exact whole_finished_iff.2 (wholeEntries_foldlM wholeEntries_nil hstatements hmade)

end Toml

/-! ## Variables -/

namespace Settings
open Data Text

/-- A value that is neither empty nor a record with an empty field. -/
structure Given (v : Value) : Prop where
  ne_null : v ≠ .null
  filled : v.Filled

theorem given_of_isAtom {v : Value} (h : v.isAtom = true) : Given v :=
  ⟨Value.ne_null_of_isAtom h, Value.filled_of_isAtom h⟩

theorem isAtom_wholeOf? {s : List Char} {v : Value} (h : wholeOf? s = some v) :
    v.isAtom = true := by
  rw [wholeOf?] at h
  dsimp only at h
  split at h
  · split at h
    · split at h
      · cases h
        rfl
      · cases h
    · split at h
      · cases h
        rfl
      · cases h
  · cases h

theorem isAtom_wordValue (s : List Char) : (wordValue s).isAtom = true := by
  rw [wordValue]
  split
  · rfl
  · split
    · next v hv => exact isAtom_wholeOf? hv
    · rfl

theorem gives_literalPair {value : Parser Value} (hvalue : Gives Given value) :
    Gives (fun p : String × Value => p.2 ≠ .null) (literalPair value) := by
  intro s p rest h
  simp only [literalPair, Option.bind_eq_bind, Option.bind_eq_some_iff] at h
  obtain ⟨⟨key, s₁⟩, -, h⟩ := h
  dsimp only at h
  split at h
  · rw [Option.bind_eq_some_iff] at h
    obtain ⟨⟨v, s₂⟩, hv, h⟩ := h
    cases h
    exact (hvalue _ _ _ hv).ne_null
  · cases h

theorem given_literal (depth : Nat) : Gives Given (literal depth) := by
  -- a record in braces holds values of the next depth
  induction depth with
  | zero =>
    intro s v rest h
    cases h
  | succ depth ih =>
    intro s v rest h
    rw [literal, Option.map_eq_some_iff] at h
    obtain ⟨⟨v', r⟩, hfound, h⟩ := h
    cases h
    split at hfound
    · cases hfound
      exact given_of_isAtom rfl
    · cases hfound
      exact given_of_isAtom rfl
    · rw [Option.map_eq_some_iff] at hfound
      obtain ⟨⟨fields, r'⟩, hfields, hfound⟩ := hfound
      cases hfound
      have hfilled := gives_separated (gives_literalPair ih) _ _ _ _ _ _ _ _ hfields
      refine ⟨Value.noConfusion, ?_⟩
      rintro _ ⟨rfl⟩ f hf
      exact hfilled f (mem_of_mem_sortFields hf)
    · rw [Option.map_eq_some_iff] at hfound
      obtain ⟨⟨items, r'⟩, -, hfound⟩ := hfound
      cases hfound
      exact given_of_isAtom rfl
    · rw [Option.map_eq_some_iff] at hfound
      obtain ⟨⟨cs, r'⟩, -, hfound⟩ := hfound
      cases hfound
      exact given_of_isAtom rfl
    · cases hfound
      exact given_of_isAtom rfl
    · cases hfound
    · cases hfound
      exact given_of_isAtom (isAtom_wordValue _)

theorem given_valueOf (text : String) : Given (valueOf text) := by
  rw [valueOf]
  split
  · next v hv => exact given_literal _ _ _ _ hv
  · exact given_of_isAtom rfl

end Settings

end ComponentWiring
