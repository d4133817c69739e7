import ComponentWiring.Decimal.Binary64

/-! # Values of data files

One type for what JSON texts, TOML documents and environment variables hold before it is read as a
value of the domain.

* `Value`: the values.
* `sortFields`: fields in the order of their keys, the last one of equal keys kept.
* `Value.fields?`: the fields of a value that has fields.
-/

namespace ComponentWiring.Data
open Decimal
set_option autoImplicit false

/-- A value of a data file. `natural` is a number known to have been written without a sign;
`moment` is a date, a time or both. -/
inductive Value where
  | null
  | bool (b : Bool)
  | integer (n : Int)
  | natural (n : Nat)
  | real (x : Binary64)
  | text (s : String)
  | moment (s : String)
  | list (items : List Value)
  | record (fields : List (String × Value))
  deriving Inhabited

/-- Puts a field among fields in the order of their keys; an equal key is replaced. -/
def insertField {α : Type} (key : String) (value : α) : List (String × α) → List (String × α)
  | [] => [(key, value)]
  | (k, v) :: rest =>
    if key < k then (key, value) :: (k, v) :: rest
    else if key = k then (key, value) :: rest
    else (k, v) :: insertField key value rest

/-- The fields in the order of their keys, the last one of equal keys kept. -/
def sortFields {α : Type} (fields : List (String × α)) : List (String × α) :=
  fields.foldl (fun sorted field => insertField field.1 field.2 sorted) []

/-- The value of a key, the last one of equal keys. -/
def lookupField? {α : Type} (key : String) (fields : List (String × α)) : Option α :=
  (fields.reverse.find? (·.1 = key)).map (·.2)

/-- The key under which the text of a moment stands where a moment is looked at as fields. -/
def momentKey : String := "$__toml_private_datetime"

def Value.fields? : Value → Option (List (String × Value))
  | .record fields => some fields
  | .moment s => some [(momentKey, .text s)]
  | _ => none

end ComponentWiring.Data
