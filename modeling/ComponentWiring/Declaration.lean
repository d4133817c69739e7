import ComponentWiring.Identity

/-! # Component declarations

* `Kind`: whether a component is concrete, an interface or abstract.
* `Location`: the document, and if known the line, of a declaration.
* `Declaration`: a component with what it depends on.
-/

namespace ComponentWiring
open Data
set_option autoImplicit false

/-- What a declared component is. -/
inductive Kind where
  | concrete
  | interface
  | abstract
  deriving DecidableEq

namespace Kind

def name : Kind → String
  | concrete => "concrete"
  | interface => "interface"
  | abstract => "abstract"

/-- The names under which a kind may be given. -/
def known : List (String × Kind) :=
  [("class", concrete), ("concrete", concrete), ("concrete-type", concrete),
   ("interface", interface), ("abstract", abstract), ("abstract-type", abstract)]

def toValue (kind : Kind) : Value := .text kind.name

def read (form : Form) : Reader Kind := choice form "ComponentKind" known

end Kind

/-- The document of a declaration, and the line of its table if that is known. -/
structure Location where
  file : String
  line : Option Nat
  deriving DecidableEq

namespace Location

def text (location : Location) : String :=
  match location.line with
  | some line => s!"{location.file}:{line}"
  | none => location.file

def toValue (location : Location) : Value :=
  .record
    [("file", .text location.file),
     ("line", match location.line with
        | some line => .integer line
        | none => .null)]

/-- The fields of a location that were read. -/
structure Draft where
  file : Option String := none
  line : Option Nat := none

def shape : Shape Draft Location where
  name := "SourceLocation"
  fields :=
    [⟨"file", fun v draft => do pure { draft with file := some (← Reader.path v) }, false⟩,
     ⟨"line", fun v draft => do
        pure { draft with line := (← Reader.optional Reader.count v) }, false⟩]
  draft := {}
  finish := fun draft => do pure ⟨← required "file" draft.file, draft.line⟩

def read : Reader Location := structured .json shape

end Location

/-- A declared component. -/
structure Declaration where
  identity : Identity
  kind : Kind
  hasNoArgConstructor : Bool
  dependencies : List Identity
  location : Option Location
  deriving DecidableEq

namespace Declaration

/-- A declaration without dependencies and location. -/
def bare (identity : Identity) (kind : Kind) (hasNoArgConstructor : Bool) : Declaration :=
  ⟨identity, kind, hasNoArgConstructor, [], none⟩

/-- A concrete component that can be made without arguments. -/
def concrete (identity : Identity) : Declaration := bare identity .concrete true

def addDependency (declaration : Declaration) (dependency : Identity) : Declaration :=
  { declaration with dependencies := declaration.dependencies ++ [dependency] }

def withDependencies (declaration : Declaration) (dependencies : List Identity) : Declaration :=
  { declaration with dependencies }

def withLocation (declaration : Declaration) (location : Location) : Declaration :=
  { declaration with location := some location }

/-- A declaration without a place is written without that field. -/
def toValue (declaration : Declaration) : Value :=
  .record
    ([("identity", declaration.identity.toValue),
      ("kind", declaration.kind.toValue),
      ("has_no_arg_constructor", .bool declaration.hasNoArgConstructor),
      ("dependencies", .list (declaration.dependencies.map (·.toValue)))] ++
     match declaration.location with
     | some location => [("location", location.toValue)]
     | none => [])

/-- The fields of a declaration that were read. -/
structure Draft where
  identity : Option Identity := none
  kind : Option Kind := none
  hasNoArgConstructor : Option Bool := none
  dependencies : List Identity := []
  location : Option Location := none

def shape : Shape Draft Declaration where
  name := "ComponentDeclaration"
  fields :=
    [⟨"identity", fun v draft => do
        pure { draft with identity := some (← Identity.read v) }, false⟩,
     ⟨"kind", fun v draft => do pure { draft with kind := some (← Kind.read .json v) }, false⟩,
     ⟨"has_no_arg_constructor", fun v draft => do
        pure { draft with hasNoArgConstructor := some (← Reader.boolean v) }, false⟩,
     ⟨"dependencies", fun v draft => do
        pure { draft with dependencies := (← Reader.list Identity.read v) }, true⟩,
     ⟨"location", fun v draft => do
        pure { draft with location := (← Reader.optional Location.read v) }, true⟩]
  draft := {}
  finish := fun draft => do
    pure
      { identity := ← required "identity" draft.identity
        kind := ← required "kind" draft.kind
        hasNoArgConstructor := ← required "has_no_arg_constructor" draft.hasNoArgConstructor
        dependencies := draft.dependencies
        location := draft.location }

def read : Reader Declaration := structured .json shape

end Declaration

end ComponentWiring
