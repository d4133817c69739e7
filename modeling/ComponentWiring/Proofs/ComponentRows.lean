import ComponentWiring.Document
import ComponentWiring.Proofs.ReadFields

/-! # Rows of component tables

The table of a text has one component table for each header of one, and as many are read.

* `Toml.Changes`: entries that differ under one key.
* `Toml.rowLength_add?`: a statement makes a row longer just if it is a header of this row.
* `Document.length_entries`: as many components are read as there are headers, if there are any.
-/

namespace ComponentWiring
set_option autoImplicit false

namespace Toml
open Data

/-! ## Entries -/

/-- Entries that are the same but for what stands under one key, where something stands now. -/
structure Changes (entries entries' : Entries) (changed : String) (item : Item) : Prop where
  found_eq : ∀ key, entry? key entries' = if key = changed then some item else entry? key entries
  nodup : (entries.map (·.1)).Nodup → (entries'.map (·.1)).Nodup

theorem changes_append {entries : Entries} {key : String} (h : entry? key entries = none)
    (item : Item) : Changes entries (entries ++ [(key, item)]) key item := by
  constructor
  · intro other
    by_cases hother : other = key
    · rw [if_pos hother, hother]
      unfold entry? at h ⊢
      rw [List.find?_append, Option.map_eq_none_iff.1 h]
      simp
    · rw [if_neg hother]
      unfold entry?
      have hnone : [(key, item)].find? (·.1 = other) = none := by simp [Ne.symm hother]
      rw [List.find?_append, hnone, Option.or_none]
  · intro hnodup
    rw [List.map_append, List.nodup_append]
    refine ⟨hnodup, by simp, ?_⟩
    rintro a ha b hb rfl
    have hlast : a = key := by simpa using hb
    exact entry?_eq_none_iff.1 h (hlast ▸ ha)

theorem changes_replace {entries : Entries} {key : String} {old : Item}
    (h : entry? key entries = some old) (item : Item) :
    Changes entries (replace key item entries) key item := by
  have hkeep : ∀ e : String × Item, (if e.1 = key then (key, item) else e).1 = e.1 := by
    intro e
    split
    · next he => exact he.symm
    · rfl
  constructor
  · intro other
    unfold entry? at h ⊢
    have hsame : ((fun e : String × Item => decide (e.1 = other)) ∘
        fun e => if e.1 = key then (key, item) else e) = fun e => decide (e.1 = other) := by
      funext e
      rw [Function.comp, hkeep]
    rw [replace, List.find?_map, hsame, Option.map_map]
    cases hfind : entries.find? (·.1 = other) with
    | none =>
      rw [if_neg]
      · rfl
      · rintro rfl
        rw [hfind] at h
        cases h
    | some e =>
      have he : e.1 = other := by simpa using List.find?_some hfind
      rw [Option.map_some, Option.map_some, Function.comp, he]
      split <;> rfl
  · intro hnodup
    have hkeys : (replace key item entries).map (·.1) = entries.map (·.1) := by
      rw [replace, List.map_map]
      exact List.map_congr_left fun e _ => hkeep e
    rwa [hkeys]

/-! ## Rows -/

/-- The number of tables in a row, if there is one. -/
def width : Option Item → Nat
  | some (.tables done _) => done.length + 1
  | _ => 0

/-- The number of tables in the row under a key. -/
def rowLength (key : String) (entries : Entries) : Nat := width <| entry? key entries

/-- Entries after a change that leaves the lengths of all rows but makes one longer by a number. -/
structure Widens (entries entries' : Entries) (wider : String) (more : Nat) : Prop where
  rowLength_eq : ∀ key,
    rowLength key entries' = rowLength key entries + if key = wider then more else 0
  nodup : (entries.map (·.1)).Nodup → (entries'.map (·.1)).Nodup

theorem Changes.widens {entries entries' : Entries} {key : String} {item : Item}
    (h : Changes entries entries' key item) {more : Nat}
    (hwidth : width (some item) = rowLength key entries + more) :
    Widens entries entries' key more where
  rowLength_eq := by
    intro other
    rw [rowLength, h.found_eq]
    by_cases hother : other = key
    · rw [if_pos hother, if_pos hother, hother, hwidth]
    · rw [if_neg hother, if_neg hother, Nat.add_zero]
      rfl
  nodup := h.nodup

section Widens
variable {entries entries' : Entries} {key : String}

theorem Widens.zero (h : Widens entries entries' key 0) (other : String) :
    Widens entries entries' other 0 where
  rowLength_eq k := by rw [h.rowLength_eq, ite_self, ite_self]
  nodup := h.nodup

/-- A change at the end of a path leaves the lengths of all rows in which the path starts. -/
theorem widens_descend {way : Origin} {change : Bool → Entries → Option Entries}
    {path : List String} {byKey : Bool}
    (h : descend way change (key :: path) byKey entries = some entries') :
    Widens entries entries' key 0 := by
  rw [descend] at h
  split at h
  · next hnone =>
    simp only [Option.bind_eq_bind, Option.bind_eq_some_iff] at h
    obtain ⟨inner, -, h⟩ := h
    cases h
    exact (changes_append hnone _).widens (by rw [rowLength, hnone]; rfl)
  · cases h
  · next origin inner hold =>
    split at h
    · cases h
    · simp only [Option.bind_eq_bind, Option.bind_eq_some_iff] at h
      obtain ⟨inner', -, h⟩ := h
      cases h
      exact (changes_replace hold _).widens (by rw [rowLength, hold]; rfl)
  · next done last hold =>
    simp only [Option.bind_eq_bind, Option.bind_eq_some_iff] at h
    obtain ⟨last', -, h⟩ := h
    cases h
    exact (changes_replace hold _).widens (by rw [rowLength, hold]; rfl)

theorem widens_addValue {v : Value} (h : addValue key v entries = some entries') :
    Widens entries entries' key 0 := by
  rw [addValue] at h
  split at h
  · next hnone =>
    cases h
    exact (changes_append hnone _).widens (by rw [rowLength, hnone]; rfl)
  · cases h

theorem widens_openHere (h : openHere key entries = some entries') :
    Widens entries entries' key 0 := by
  rw [openHere] at h
  split at h
  · next hnone =>
    cases h
    exact (changes_append hnone _).widens (by rw [rowLength, hnone]; rfl)
  · next inner hold =>
    cases h
    exact (changes_replace hold _).widens (by rw [rowLength, hold]; rfl)
  · cases h

theorem widens_openElementHere (h : openElementHere key entries = some entries') :
    Widens entries entries' key 1 := by
  rw [openElementHere] at h
  split at h
  · next hnone =>
    cases h
    exact (changes_append hnone _).widens (by rw [rowLength, hnone]; rfl)
  · next done last hold =>
    cases h
    exact (changes_replace hold _).widens (by rw [rowLength, hold]; simp [width])
  · cases h

theorem widens_addPair {path : List String} {v : Value}
    (h : addPair path key v entries = some entries') : Widens entries entries' key 0 := by
  cases path with
  | nil => exact widens_addValue h
  | cons first path => exact (widens_descend h).zero key

theorem widens_atHeader {change : Entries → Option Entries} {header : List String}
    (hchange : ∀ e e', change e = some e' → Widens e e' key 0)
    (h : atHeader change header entries = some entries') : Widens entries entries' key 0 := by
  rw [atHeader] at h
  cases header with
  | nil => exact hchange entries entries' h
  | cons first rest => exact (widens_descend h).zero key

end Widens

/-- The header of a further table in the row under a key. -/
def isElement (key : String) : Statement → Bool
  | .element [] k => k = key
  | _ => false

/-- A statement makes the row under a key longer by one if it is a header of this row, and leaves
its length otherwise. -/
theorem rowLength_add? {a b : Assembly} {statement : Statement} (h : a.add? statement = some b)
    (key : String) :
    rowLength key b.entries = rowLength key a.entries + (if isElement key statement then 1 else 0) ∧
      ((a.entries.map (·.1)).Nodup → (b.entries.map (·.1)).Nodup) := by
  have hkeep : ∀ {k}, Widens a.entries b.entries k 0 →
      rowLength key b.entries = rowLength key a.entries + 0 := by
    intro k hwidens
    rw [hwidens.rowLength_eq, ite_self]
  cases statement with
  | pair path k v =>
    simp only [Assembly.add?, Option.bind_eq_bind, Option.bind_eq_some_iff] at h
    obtain ⟨entries, hentries, h⟩ := h
    cases h
    have hwidens : Widens a.entries entries k 0 :=
      widens_atHeader (fun _ _ => widens_addPair) hentries
    exact ⟨hkeep hwidens, hwidens.nodup⟩
  | table path k =>
    simp only [Assembly.add?, Option.bind_eq_bind, Option.bind_eq_some_iff] at h
    obtain ⟨entries, hentries, h⟩ := h
    cases h
    have hwidens : Widens a.entries entries k 0 := by
      cases path with
      | nil => exact widens_openHere hentries
      | cons first path => exact (widens_descend hentries).zero k
    exact ⟨hkeep hwidens, hwidens.nodup⟩
  | element path k =>
    simp only [Assembly.add?, Option.bind_eq_bind, Option.bind_eq_some_iff] at h
    obtain ⟨entries, hentries, h⟩ := h
    cases h
    -- a header with a longer path makes a row further inside longer
    cases path with
    | nil =>
      have hwidens : Widens a.entries entries k 1 := widens_openElementHere hentries
      refine ⟨?_, hwidens.nodup⟩
      rw [hwidens.rowLength_eq]
      simp [isElement, eq_comm]
    | cons first path =>
      have hwidens : Widens a.entries entries first 0 := widens_descend hentries
      exact ⟨hkeep hwidens, hwidens.nodup⟩

theorem rowLength_foldlM {statements : List Statement} {a b : Assembly}
    (h : statements.foldlM Assembly.add? a = some b) (key : String) :
    rowLength key b.entries = rowLength key a.entries + statements.countP (isElement key) ∧
      ((a.entries.map (·.1)).Nodup → (b.entries.map (·.1)).Nodup) := by
  induction statements generalizing a with
  | nil =>
    cases h
    simp
  | cons statement statements ih =>
    rw [List.foldlM_cons] at h
    simp only [Option.bind_eq_bind, Option.bind_eq_some_iff] at h
    obtain ⟨next, hnext, h⟩ := h
    obtain ⟨hlength, hnodup⟩ := ih h
    obtain ⟨hstep, hkeys⟩ := rowLength_add? hnext key
    refine ⟨?_, hnodup ∘ hkeys⟩
    rw [hlength, hstep, List.countP_cons]
    omega

/-! ## The row of a text -/

theorem length_finishedAll (done : List Entries) : (finishedAll done).length = done.length := by
  induction done with
  | nil => rw [finishedAll]; rfl
  | cons entries rest ih => rw [finishedAll, List.length_cons, List.length_cons, ih]

theorem exists_tables {key : String} {entries : Entries} (h : rowLength key entries ≠ 0) :
    ∃ done last, entry? key entries = some (.tables done last) ∧
      rowLength key entries = done.length + 1 := by
  unfold rowLength at h ⊢
  cases hitem : entry? key entries with
  | none =>
    rw [hitem] at h
    exact absurd rfl h
  | some item =>
    cases item with
    | value v =>
      rw [hitem] at h
      exact absurd rfl h
    | table origin inner =>
      rw [hitem] at h
      exact absurd rfl h
    | tables done last => exact ⟨done, last, rfl, rfl⟩

/-- What is read of a text is what its statements make. -/
theorem exists_made {edition : Edition} {text : String} {all : List (Nat × Statement)}
    {fields : List (String × Value)} (hall : statements edition text = .ok all)
    (hread : read edition text = .ok fields) :
    ∃ made, (all.map (·.2)).foldlM Assembly.add? ⟨[], []⟩ = some made ∧
      finished made.entries = fields := by
  rw [read, hall] at hread
  obtain ⟨all, ⟨rfl⟩, hread⟩ := bind_eq_ok_iff.1 hread
  obtain ⟨made, hmade, hfields⟩ := bind_eq_ok_iff.1 hread
  exact ⟨made, assemble_eq_ok_iff.1 hmade, Except.ok.inj hfields⟩

/-- A text with headers of a row has a list of as many tables under the key. -/
theorem exists_row {edition : Edition} {text : String} {all : List (Nat × Statement)}
    {fields : List (String × Value)} (hall : statements edition text = .ok all)
    (hread : read edition text = .ok fields) {key : String}
    (hcount : (all.map (·.2)).countP (isElement key) ≠ 0) :
    (fields.map (·.1)).Nodup ∧ ∃ items, (key, .list items) ∈ fields ∧
      items.length = (all.map (·.2)).countP (isElement key) := by
  obtain ⟨made, hmade, rfl⟩ := exists_made hall hread
  obtain ⟨hlength, hnodup⟩ := rowLength_foldlM hmade key
  have hstart : rowLength key [] = 0 := rfl
  rw [hstart, Nat.zero_add] at hlength
  obtain ⟨done, last, hitem, hwidth⟩ := exists_tables (hlength ▸ hcount)
  rw [finished_eq_map, List.map_map]
  refine ⟨hnodup List.nodup_nil, finishedAll done ++ [.record (finished last)], ?_, ?_⟩
  · have hvalue : (Item.tables done last).toValue =
        .list (finishedAll done ++ [.record (finished last)]) := by rw [Item.toValue]
    rw [← hvalue]
    exact List.mem_map_of_mem (mem_of_found hitem)
  · rw [List.length_append, length_finishedAll, List.length_singleton, ← hwidth, hlength]

end Toml

/-! ## Components of a document -/

namespace Document
open Data

theorem length_of_itemsFrom {α : Type} {reader : Reader α} {index : Nat} {items : List Value}
    {xs : List α} (h : Reader.itemsFrom reader index items = .ok xs) :
    xs.length = items.length := by
  induction items generalizing index xs with
  | nil =>
    cases h
    rfl
  | cons item items ih =>
    rw [Reader.itemsFrom] at h
    obtain ⟨x, -, h⟩ := bind_eq_ok_iff.1 h
    obtain ⟨more, hrest, h⟩ := bind_eq_ok_iff.1 h
    cases h
    rw [List.length_cons, List.length_cons, ih hrest]

theorem sees_component : shape.Sees "component" (Reader.list Entry.read) id where
  read_eq := ⟨_, rfl, fun _ _ _ h => h⟩
  keeps := by simp [shape]
  finish_eq := rfl

theorem length_entries {text : String} {all : List (Nat × Toml.Statement)} {read : List Entry}
    (hall : Toml.statements .v11 text = .ok all) (h : entries text = .ok read)
    (hcount : (all.map (·.2)).countP (Toml.isElement "component") ≠ 0) :
    read.length = (all.map (·.2)).countP (Toml.isElement "component") := by
  rw [entries] at h
  split at h
  · cases h
  · next fields hfields =>
    obtain ⟨hnodup, items, hitems, hlength⟩ := Toml.exists_row hall hfields hcount
    split at h
    · cases h
    · next found hfound =>
      cases h
      have hlist := sees_component.reader_eq hfound hnodup
        ((lookupField?_eq_some_iff hnodup).2 hitems)
      rw [← hlength]
      exact length_of_itemsFrom hlist

end Document

end ComponentWiring
