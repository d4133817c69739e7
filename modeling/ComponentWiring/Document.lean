import ComponentWiring.Declaration
import ComponentWiring.Toml.Statement

/-! # Declaration documents

A document is a TOML text whose component tables are declarations. Each declaration is told with
the line on which its table seems to start.

* `Document.headerLines`: the lines that look like the header of a component table.
* `Document.Entry`: a component table.
* `Document.declarations`: the declarations of a document.
-/

namespace ComponentWiring.Document
open Data
set_option autoImplicit false

/-! ## Lines of headers -/

def header : List Char := "[[component]]".toList

/-- A line that is a header once its comment and its blank characters are left out. -/
def isHeader (line : List Char) : Bool :=
  (line.takeWhile (· ≠ '#')).filter (fun c => !Text.isBlank c) = header

/-- The numbers of the lines that look like headers, where a number is given to the first line. -/
def headersFrom : Nat → List (List Char) → List Nat
  | _, [] => []
  | number, line :: lines =>
    if isHeader line then number :: headersFrom (number + 1) lines
    else headersFrom (number + 1) lines

/-- The numbers of the lines of a text that look like headers. -/
def headerLines (text : String) : List Nat := headersFrom 1 (Text.lines text.toList)

/-! ## Component tables -/

/-- A component table. -/
structure Entry where
  identity : Identity
  kind : Kind
  hasNoArgConstructor : Bool
  dependencies : List Identity

/-- The fields of a component table that were read. -/
structure Draft where
  identity : Option Identity := none
  kind : Kind := .concrete
  hasNoArgConstructor : Bool := true
  dependencies : List Identity := []

def Entry.shape : Shape Draft Entry where
  name := "ComponentEntry"
  fields :=
    [⟨"identity", fun v d => do pure { d with identity := some (← Identity.read v) }, false⟩,
     ⟨"kind", fun v d => do pure { d with kind := ← Kind.read .document v }, true⟩,
     ⟨"no_arg_constructor", fun v d => do
        pure { d with hasNoArgConstructor := ← Reader.boolean v }, true⟩,
     ⟨"depends_on", fun v d => do
        pure { d with dependencies := ← Reader.list Identity.read v }, true⟩]
  draft := {}
  finish := fun d => do
    pure ⟨← required "identity" d.identity, d.kind, d.hasNoArgConstructor, d.dependencies⟩
  closed := true

def Entry.read : Reader Entry := structured .document Entry.shape

/-- The declaration of a component table at a place. -/
def Entry.declaration (entry : Entry) (location : Location) : Declaration :=
  ⟨entry.identity, entry.kind, entry.hasNoArgConstructor, entry.dependencies, some location⟩

/-! ## Documents -/

def shape : Shape (List Entry) (List Entry) where
  name := "DeclarationDocument"
  fields := [⟨"component", fun v _ => Reader.list Entry.read v, true⟩]
  draft := []
  finish := .ok

def entries (text : String) : Except DocumentFault (List Entry) :=
  match Toml.read .v11 text with
  | .error line => .error (.notToml line)
  | .ok fields =>
    match structured .document shape (.record fields) with
    | .error mismatch => .error (.misfit mismatch)
    | .ok entries => .ok entries

/-- The declarations of component tables, where the first ones get the given lines in order. -/
def located (file : String) : List Nat → List Entry → List Declaration
  | _, [] => []
  | [], entry :: entries => entry.declaration ⟨file, none⟩ :: located file [] entries
  | line :: lines, entry :: entries =>
    entry.declaration ⟨file, some line⟩ :: located file lines entries

def declarations (path text : String) : Except Error (List Declaration) :=
  match entries text with
  | .error fault => .error (.scan path (.document fault))
  | .ok entries => .ok (located path (headerLines text) entries)

end ComponentWiring.Document
