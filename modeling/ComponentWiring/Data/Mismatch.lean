import ComponentWiring.Data.Value
import ComponentWiring.Text.Quoted

/-! # Why a value does not fit a type

* `Wanted`: what a reader was looking for.
* `Misfit`: the ways in which a value can fail to fit.
* `Mismatch`: a misfit and the place in the value where it is.
* `Misfit.message`: the text for JSON values and documents.
* `Misfit.settingsMessage`: the text for settings.
-/

namespace ComponentWiring.Data
set_option autoImplicit false

/-- What a reader was looking for. -/
inductive Wanted where
  | string
  | boolean
  | count
  | sequence
  | path
  | struct (name : String)
  | structOf (name : String) (size : Nat)
  | fewerItems
  | choice (name : String)
  | stringOrMap
  | singleKeyMap
  | unit
  | newtypeVariant
  | choiceKey
  deriving DecidableEq

def Wanted.message : Wanted → String
  | .string => "a string"
  | .boolean => "a boolean"
  | .count => "usize"
  | .sequence => "a sequence"
  | .path => "path string"
  | .struct name => s!"struct {name}"
  | .structOf name size =>
    let noun := if size = 1 then "element" else "elements"
    s!"struct {name} with {size} {noun}"
  | .fewerItems => "fewer elements in array"
  | .choice name => s!"enum {name}"
  | .stringOrMap => "string or map"
  | .singleKeyMap => "map with a single key"
  | .unit => "unit"
  | .newtypeVariant => "newtype variant"
  | .choiceKey => "enum"

/-- What stands where something else was wanted. -/
inductive Found where
  | value (v : Value)
  | bareVariant

/-- What stands in a JSON value or a document, as its error texts call it. -/
def Found.message : Found → String
  | .value .null => "null"
  | .value (.bool b) => s!"boolean `{b}`"
  | .value (.integer n) => s!"integer `{n}`"
  | .value (.natural n) => s!"integer `{n}`"
  | .value (.real x) => s!"floating point `{x.pointed}`"
  | .value (.text s) => s!"string {Text.quoted s}"
  | .value (.list _) => "sequence"
  | .value (.moment _) => "map"
  | .value (.record _) => "map"
  | .bareVariant => "unit variant"

/-- What stands in the settings, as their error texts call it. -/
def Found.settingsMessage : Found → String
  | .value .null => "unit"
  | .value (.bool b) => s!"bool {b}"
  | .value (.integer n) => s!"signed int `{n}`"
  | .value (.natural n) => s!"unsigned int `{n}`"
  | .value (.real x) => s!"float `{x.plain}`"
  | .value (.text s) => s!"string {Text.quoted s}"
  | .value (.list _) => "sequence"
  | .value (.moment _) => "map"
  | .value (.record _) => "map"
  | .bareVariant => "unit variant"

def documentTypeName : Value → String
  | .null => "null"
  | .bool _ => "boolean"
  | .integer _ => "integer"
  | .natural _ => "integer"
  | .real _ => "float"
  | .text _ => "string"
  | .moment _ => "datetime"
  | .list _ => "array"
  | .record _ => "table"

/-- The ways in which a value can fail to fit a type. -/
inductive Misfit where
  | wrongType (found : Found) (wanted : Wanted)
  | wrongValue (found : Found) (wanted : Wanted)
  | wrongLength (length : Nat) (wanted : Wanted)
  | missingField (name : String)
  | unknownField (name : String) (known : List String)
  | unknownVariant (name : String) (known : List String)
  | noEntry
  | manyEntries
  | neitherNameNorTable
  | payloadNotTable (found : Value)
  | payloadNotEmpty (found : Value)
  | refused (message : String)

/-- The names a value may have: one or two of them, or a list. -/
def oneOf : List String → String
  | [a] => s!"`{a}`"
  | [a, b] => s!"`{a}` or `{b}`"
  | names => "one of " ++ ", ".intercalate (names.map fun name => s!"`{name}`")

/-- The text of a misfit in a JSON value or a document. -/
def Misfit.message : Misfit → String
  | .wrongType found wanted => s!"invalid type: {found.message}, expected {wanted.message}"
  | .wrongValue found wanted => s!"invalid value: {found.message}, expected {wanted.message}"
  | .wrongLength length wanted => s!"invalid length {length}, expected {wanted.message}"
  | .missingField name => s!"missing field `{name}`"
  | .unknownField name known => s!"unknown field `{name}`, expected {oneOf known}"
  | .unknownVariant name known => s!"unknown variant `{name}`, expected {oneOf known}"
  | .noEntry => "wanted exactly 1 element, found 0 elements"
  | .manyEntries => "wanted exactly 1 element, more than 1 element"
  | .neitherNameNorTable => "wanted string or table"
  | .payloadNotTable found => s!"expected table, found {documentTypeName found}"
  | .payloadNotEmpty found => s!"expected empty {documentTypeName found}"
  | .refused message => message

def Misfit.settingsMessage : Misfit → String
  | .wrongType found wanted =>
    s!"invalid type: found {found.settingsMessage}, expected {wanted.message}"
  | .wrongValue found wanted =>
    s!"invalid value {found.settingsMessage}, expected {wanted.message}"
  | .unknownField name known => s!"unknown field: found `{name}`, expected `{oneOf known}`"
  | .unknownVariant name known => s!"unknown variant: found `{name}`, expected `{oneOf known}`"
  | misfit => misfit.message

/-- A step from a value into one of its parts. -/
inductive Step where
  | field (name : String)
  | item (index : Nat)
  deriving DecidableEq

def Step.message : Step → String
  | .field name => name
  | .item index => toString index

/-- A misfit and the way to it from the whole value. -/
structure Mismatch where
  path : List Step
  misfit : Misfit

/-- The text of a mismatch in a JSON value or a document, which does not tell the place. -/
def Mismatch.message (m : Mismatch) : String := m.misfit.message

/-- A misfit of the whole value. -/
def Misfit.here (misfit : Misfit) : Mismatch := ⟨[], misfit⟩

/-- The mismatch seen from the value that holds the part. -/
def Mismatch.under (step : Step) (m : Mismatch) : Mismatch := { m with path := step :: m.path }

end ComponentWiring.Data
