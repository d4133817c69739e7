import ComponentWiring.Data.Mismatch

/-! # Reading typed values

The readers are the same for JSON values, documents and settings, save for how a choice between
names may be written and whether a list may be longer than the structure it stands for.

* `Form`: where the value comes from.
* `Reader`: a function from values to a type, or the mismatch.
* `Shape`, `structured`: structures, as a record of their fields or as a list in field order.
* `choice`: one of several names.
* `tagged`: one of several names with a value.
-/

namespace ComponentWiring.Data
set_option autoImplicit false

/-- Where a value comes from. -/
inductive Form where
  | json
  | document
  | settings
  deriving DecidableEq

/-- Reads a value as a type, or tells why it does not fit. -/
abbrev Reader (α : Type) := Value → Except Mismatch α

/-- The misfit of a value that is not of the wanted type. -/
def wrongType {α : Type} (v : Value) (wanted : Wanted) : Except Mismatch α :=
  .error (Misfit.wrongType (.value v) wanted).here

namespace Reader

def string : Reader String
  | .text s => .ok s
  | v => wrongType v .string

def path : Reader String
  | .text s => .ok s
  | v => wrongType v .path

def boolean : Reader Bool
  | .bool b => .ok b
  | v => wrongType v .boolean

/-- A number from zero on; a negative one has the right type but not the right value. -/
def count : Reader Nat
  | .integer n =>
    if 0 ≤ n then .ok n.toNat
    else .error (Misfit.wrongValue (.value (.integer n)) .count).here
  | .natural n => .ok n
  | v => wrongType v .count

def optional {α : Type} (reader : Reader α) : Reader (Option α)
  | .null => .ok none
  | v => (reader v).map some

/-- Reads the items of a list from an index on. -/
def itemsFrom {α : Type} (reader : Reader α) : Nat → List Value → Except Mismatch (List α)
  | _, [] => .ok []
  | index, item :: items => do
    let x ← (reader item).mapError (Mismatch.under (.item index))
    let xs ← itemsFrom reader (index + 1) items
    pure (x :: xs)

def list {α : Type} (reader : Reader α) : Reader (List α)
  | .list items => itemsFrom reader 0 items
  | v => wrongType v .sequence

theorem itemsFrom_map {α : Type} {reader : Reader α} {write : α → Value}
    (h : ∀ x, reader (write x) = .ok x) (index : Nat) (xs : List α) :
    itemsFrom reader index (xs.map write) = .ok xs := by
  induction xs generalizing index with
  | nil => rfl
  | cons x xs ih =>
    rw [List.map_cons, itemsFrom, h, ih]
    rfl

theorem list_map {α : Type} {reader : Reader α} {write : α → Value}
    (h : ∀ x, reader (write x) = .ok x) (xs : List α) :
    list reader (.list (xs.map write)) = .ok xs := itemsFrom_map h 0 xs

end Reader

/-! ## Structures -/

/-- A field of a structure: how its value is put into a draft, and whether a list that stands for
the structure may end before it. -/
structure Field (σ : Type) where
  name : String
  read : Value → σ → Except Mismatch σ
  mayBeLeftOff : Bool

/-- A structure: its name, its fields in order, the draft before any field is read, what a draft
makes, and whether fields of other names are refused. -/
structure Shape (σ α : Type) where
  name : String
  fields : List (Field σ)
  draft : σ
  finish : σ → Except Mismatch α
  closed : Bool := false

def required {α : Type} (name : String) : Option α → Except Mismatch α
  | some x => .ok x
  | none => .error (Misfit.missingField name).here

/-- Reads the fields of a record, in the order given. -/
def Shape.readFields {σ α : Type} (shape : Shape σ α) :
    List (String × Value) → σ → Except Mismatch σ
  | [], draft => .ok draft
  | (key, v) :: rest, draft =>
    match shape.fields.find? (·.name = key) with
    | some field => do
      let draft ← (field.read v draft).mapError (Mismatch.under (.field key))
      shape.readFields rest draft
    | none =>
      if shape.closed then
        .error (Misfit.unknownField key (shape.fields.map (·.name))).here
      else shape.readFields rest draft

/-- Reads the items of a list as the fields from an index on. -/
def Shape.readItems {σ α : Type} (shape : Shape σ α) :
    Nat → List (Field σ) → List Value → σ → Except Mismatch σ
  | _, [], _, draft => .ok draft
  | index, field :: fields, [], draft =>
    if field.mayBeLeftOff then shape.readItems (index + 1) fields [] draft
    else .error (Misfit.wrongLength index (.structOf shape.name shape.fields.length)).here
  | index, field :: fields, v :: items, draft => do
    let draft ← (field.read v draft).mapError (Mismatch.under (.item index))
    shape.readItems (index + 1) fields items draft

/-- Reads a structure. The fields of a record are read in the order of their keys, so of several
faults the one with the first key is told, and a missing field after all of them. -/
def structured {σ α : Type} (form : Form) (shape : Shape σ α) : Reader α
  | .list items => do
    let draft ← shape.readItems 0 shape.fields items shape.draft
    if form = .json ∧ shape.fields.length < items.length then
      .error (Misfit.wrongLength items.length .fewerItems).here
    else shape.finish draft
  | v =>
    match v.fields? with
    | some fields => do
      let draft ← shape.readFields (sortFields fields) shape.draft
      shape.finish draft
    | none => wrongType v (.struct shape.name)

theorem structured_record {σ α : Type} (form : Form) (shape : Shape σ α)
    (fields : List (String × Value)) :
    structured form shape (.record fields) = (do
      let draft ← shape.readFields (sortFields fields) shape.draft
      shape.finish draft) := rfl

/-! ## Choices -/

/-- The meaning of a name. -/
def named {α : Type} (known : List (String × α)) (name : String) : Except Mismatch α :=
  match known.find? (·.1 = name) with
  | some (_, x) => .ok x
  | none => .error (Misfit.unknownVariant name (known.map (·.1))).here

/-- Reads one of several names. The name may also stand as the only key of a record, whose value
must be empty. -/
def choice {α : Type} (form : Form) (name : String) (known : List (String × α)) : Reader α
  | .text s => named known s
  | v =>
    match form, v, v.fields?.map sortFields with
    | .json, _, some [(key, content)] => do
      let x ← named known key
      match content with
      | .null => pure x
      | content => wrongType content .unit
    | .json, v, some _ => .error (Misfit.wrongValue (.value v) .singleKeyMap).here
    | .json, v, none => wrongType v .stringOrMap
    | .document, .record _, some [] => .error Misfit.noEntry.here
    | .document, .record _, some [(key, content)] => do
      let x ← named known key
      match content with
      | .list [] => pure x
      | .record [] => pure x
      | .list items => .error (Misfit.payloadNotEmpty (.list items)).here
      | .record fields => .error (Misfit.payloadNotEmpty (.record fields)).here
      | content => .error (Misfit.payloadNotTable content).here
    | .document, .record _, some _ => .error Misfit.manyEntries.here
    | .document, _, _ => .error Misfit.neitherNameNorTable.here
    | .settings, v, some [] => wrongType v .choiceKey
    | .settings, _, some ((key, content) :: _) => do
      let x ← named known key
      match content with
      | .null => pure x
      | content => (wrongType content .unit).mapError (Mismatch.under (.field key))
    | .settings, v, none => wrongType v (.choice name)

/-- Reads a JSON record whose only key is one of several names that take a value. -/
def tagged {α : Type} (known : List (String × Reader α)) : Reader α
  | .text s => do
    let _ ← named known s
    .error (Misfit.wrongType .bareVariant .newtypeVariant).here
  | v =>
    match v.fields?.map sortFields with
    | some [(key, content)] => do
      let reader ← named known key
      reader content
    | some _ => .error (Misfit.wrongValue (.value v) .singleKeyMap).here
    | none => wrongType v .stringOrMap

end ComponentWiring.Data
