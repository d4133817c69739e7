import ComponentWiring.Data.Value

/-! # TOML tables under construction

A table is filled by pairs whose keys are paths, and by headers that open tables. What may be
extended depends on how a table came about.

* `Origin`, `Item`: how tables came about, and what stands under a key.
* `descend`: a change at the end of a path.
* `addPair`, `openTable`, `openElement`: what pairs and headers do.
* `atHeader`: a change in the table that a header opened.
* `Item.toValue`: the finished value.
-/

namespace ComponentWiring.Toml
open Data
set_option autoImplicit false

/-- How a table came about: by a header of its own, on the way of a header, or on the way of a
pair's key. -/
inductive Origin where
  | opened
  | onHeader
  | onKey
  deriving DecidableEq

/-- What stands under a key: a value, a table, or tables in a row of which only the last one can
still grow. -/
inductive Item where
  | value (v : Value)
  | table (origin : Origin) (entries : List (String × Item))
  | tables (done : List (List (String × Item))) (last : List (String × Item))

/-- The keys of a table with what stands under them, in order of addition. -/
abbrev Entries := List (String × Item)

/-- What stands under a key. -/
def entry? (key : String) (entries : Entries) : Option Item :=
  (entries.find? (·.1 = key)).map (·.2)

theorem entry?_eq_none_iff {key : String} {entries : Entries} :
    entry? key entries = none ↔ key ∉ entries.map (·.1) := by
  unfold entry?
  rw [Option.map_eq_none_iff, List.find?_eq_none, List.mem_map]
  constructor
  · rintro hnone ⟨e, he, hkey⟩
    exact hnone e he (decide_eq_true hkey)
  · intro hnone e he hkey
    exact hnone ⟨e, he, of_decide_eq_true hkey⟩

theorem mem_of_found {key : String} {entries : Entries} {item : Item}
    (h : entry? key entries = some item) : (key, item) ∈ entries := by
  unfold entry? at h
  rw [Option.map_eq_some_iff] at h
  obtain ⟨e, he, rfl⟩ := h
  have hkey : e.1 = key := by simpa using List.find?_some he
  rw [← hkey]
  exact List.mem_of_find?_eq_some he

/-- The entries with something else under a key that is there. -/
def replace (key : String) (item : Item) (entries : Entries) : Entries :=
  entries.map fun e => if e.1 = key then (key, item) else e

/-- Makes a change in the table at the end of a path, making the tables on the way. On the way of a
pair's key no opened table may be entered. `byKey` tells whether the table came about on the way of
a pair's key. -/
def descend (way : Origin) (change : Bool → Entries → Option Entries) :
    List String → Bool → Entries → Option Entries
  | [], byKey, entries => change byKey entries
  | key :: path, _, entries =>
    match entry? key entries with
    | none => do
      let inner ← descend way change path (way = .onKey) []
      pure (entries ++ [(key, .table way inner)])
    | some (.value _) => none
    | some (.table origin inner) =>
      if way = .onKey ∧ origin = .opened then none
      else do
        let inner ← descend way change path (origin = .onKey) inner
        pure (replace key (.table origin inner) entries)
    | some (.tables done last) => do
      let last ← descend way change path false last
      pure (replace key (.tables done last) entries)

def addValue (key : String) (v : Value) (entries : Entries) : Option Entries :=
  match entry? key entries with
  | none => some (entries ++ [(key, .value v)])
  | some _ => none

/-- Adds a value under a path with a last key. A path leads only into tables that came about on the
way of keys. -/
def addPair (path : List String) (key : String) (v : Value) (entries : Entries) :
    Option Entries :=
  descend .onKey
    (fun byKey entries => if byKey = path.isEmpty then none else addValue key v entries)
    path false entries

/-- Opens the table under a key, which is new or came about on the way of headers. -/
def openHere (key : String) (entries : Entries) : Option Entries :=
  match entry? key entries with
  | none => some (entries ++ [(key, .table .opened [])])
  | some (.table .onHeader inner) => some (replace key (.table .opened inner) entries)
  | some _ => none

/-- Opens a further table in the row under a key. -/
def openElementHere (key : String) (entries : Entries) : Option Entries :=
  match entry? key entries with
  | none => some (entries ++ [(key, .tables [] [])])
  | some (.tables done last) => some (replace key (.tables (done ++ [last]) []) entries)
  | some _ => none

def openTable (path : List String) (key : String) (entries : Entries) : Option Entries :=
  descend .onHeader (fun _ => openHere key) path false entries

/-- Opens a further table in the row at a path with a last key. -/
def openElement (path : List String) (key : String) (entries : Entries) : Option Entries :=
  descend .onHeader (fun _ => openElementHere key) path false entries

/-- Makes a change in the table that the last header with a path opened. -/
def atHeader (change : Entries → Option Entries) : List String → Entries → Option Entries
  | path, entries => descend .onHeader (fun _ => change) path false entries

mutual

def Item.toValue : Item → Value
  | .value v => v
  | .table _ entries => .record (finished entries)
  | .tables done last => .list (finishedAll done ++ [.record (finished last)])

def finished : List (String × Item) → List (String × Value)
  | [] => []
  | e :: entries => (e.1, e.2.toValue) :: finished entries

def finishedAll : List (List (String × Item)) → List Value
  | [] => []
  | entries :: rest => .record (finished entries) :: finishedAll rest

end

theorem finished_eq_map (entries : Entries) :
    finished entries = entries.map fun e => (e.1, e.2.toValue) := by
  induction entries with
  | nil => rw [finished, List.map_nil]
  | cons e entries ih => rw [finished, List.map_cons, ih]

end ComponentWiring.Toml
