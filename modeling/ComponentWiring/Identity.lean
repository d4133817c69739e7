import ComponentWiring.Data.Reader
import ComponentWiring.Error
import ComponentWiring.Text.Blank
import ComponentWiring.Text.Split

/-! # Component identities

An identity is a name that is not blank and has no blank characters at its ends.

* `Identity`: the type.
* `Identity.ofName?`: the identity of a name.
* `Identity.simpleName`: the last part of a name with points or double colons.
* `Identity.pathText`: identities as a dependency path.
-/

namespace ComponentWiring
open Data
set_option autoImplicit false

/-- The name of a component: not empty, and nothing to trim. -/
structure Identity where
  name : String
  trim_name : Text.trim name = name
  name_ne : name ≠ ""
  deriving DecidableEq

namespace Identity

/-- The identity of a name, which is trimmed; a blank name has none. -/
def ofName? (name : String) : Option Identity :=
  if h : Text.trim name = "" then none
  else some ⟨Text.trim name, Text.trim_trim name, h⟩

def blankName : Error := .invalidArgument "component identity cannot be empty"

def ofName (name : String) : Except Error Identity :=
  match ofName? name with
  | some identity => .ok identity
  | none => .error blankName

/-- What follows the last point, and in it what follows the last double colon. -/
def simpleName (identity : Identity) : String :=
  String.ofList (Text.afterLastPair ':' (Text.afterLast '.' identity.name.toList))

/-- The order of identities is the order of their names. -/
def le (a b : Identity) : Bool := a.name ≤ b.name

def pathText (path : List Identity) : String := Text.join " -> " (path.map (·.name))

/-! ## As data -/

def toValue (identity : Identity) : Value := .text identity.name

/-- An identity is read from a text that is not blank. -/
def read : Reader Identity := fun v => do
  let name ← Reader.string v
  match ofName? name with
  | some identity => pure identity
  | none => .error (Misfit.refused blankName.message).here

/-! ## Laws of identities -/

theorem ext_name {a b : Identity} (h : a.name = b.name) : a = b := by
  cases a
  cases b
  cases h
  rfl

@[simp] theorem ofName?_name (identity : Identity) : ofName? identity.name = some identity := by
  have h : Text.trim identity.name ≠ "" := by rw [identity.trim_name]; exact identity.name_ne
  simp only [ofName?, h, dite_false, Option.some.injEq]
  exact ext_name identity.trim_name

theorem name_of_ofName? {name : String} {identity : Identity} (h : ofName? name = some identity) :
    identity.name = Text.trim name := by
  unfold ofName? at h
  split at h
  · simp at h
  · cases h
    rfl

end Identity

end ComponentWiring
