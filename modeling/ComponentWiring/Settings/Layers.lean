import ComponentWiring.File.Path
import ComponentWiring.Settings.Basic
import ComponentWiring.Settings.Literal

/-! # Layers of settings

Settings come in layers: the defaults, a file, and the environment. Records are merged key by key;
anything else in a later layer takes the place of what is below it. Each value keeps its origin, so
that a value that does not fit can be told with it.

* `Origin`, `Layered`: values with origins.
* `Layered.above`: a later layer above an earlier one.
* `environmentLayer`: the layer of the variables with a common beginning of their names.
* `extract`: the settings of layers.
-/

namespace ComponentWiring.Settings
open Data
set_option autoImplicit false

/-! ## Origins -/

/-- Where a value comes from: the defaults, a file, or the variables with a beginning of their
names. -/
inductive Origin where
  | defaults
  | file (path : String)
  | environment (start : String)
  deriving DecidableEq

def upper (s : String) : String := s.map Char.toUpper

def Origin.text : Origin → String
  | defaults => "defaults"
  | file path => s!"{path} TOML file"
  | environment start => s!"`{upper start}` environment variable(s)"

def Origin.key : Origin → List Step → String
  | environment _, way => Text.join "." (way.map fun step => upper step.message)
  | _, way => Text.join "." ("default" :: way.map (·.message))

/-! ## Values with origins -/

/-- A value with the origins of its parts. -/
inductive Layered where
  | leaf (origin : Origin) (v : Value)
  | record (origin : Origin) (fields : List (String × Layered))

namespace Layered

/-- A field of a layer of one value. -/
def field (origin : Origin) (key : String) (inner : Layered) : Layered :=
  .record origin [(key, inner)]

mutual

/-- A value all of whose parts have one origin. -/
def of (origin : Origin) : Value → Layered
  | .record fields => .record origin (ofFields origin fields)
  | .moment s => .record origin [(momentKey, .leaf origin (.text s))]
  | v => .leaf origin v

/-- Fields all of whose parts have one origin. -/
def ofFields (origin : Origin) : List (String × Value) → List (String × Layered)
  | [] => []
  | f :: fields => (f.1, of origin f.2) :: ofFields origin fields

end

mutual

/-- A later layer above an earlier one. -/
def above : Layered → Layered → Layered
  | .record origin later, .record _ earlier => .record origin (aboveFields later earlier)
  | later, _ => later

/-- The fields of a later layer above those of an earlier one. -/
def aboveFields : List (String × Layered) → List (String × Layered) → List (String × Layered)
  | [], earlier => earlier
  | f :: later, earlier =>
    aboveFields later
      (match earlier.find? (·.1 = f.1) with
       | some (_, below) =>
         earlier.map fun e => if e.1 = f.1 then (f.1, above f.2 below) else e
       | none => earlier ++ [(f.1, f.2)])

end

mutual

/-- The value without origins. -/
def plain : Layered → Value
  | .leaf _ v => v
  | .record _ fields => .record (plainFields fields)

def plainFields : List (String × Layered) → List (String × Value)
  | [] => []
  | f :: fields => (f.1, plain f.2) :: plainFields fields

end

def origin : Layered → Origin
  | .leaf origin _ => origin
  | .record origin _ => origin

/-- The origin of the part that a way leads to. -/
def originAt : List Step → Layered → Origin
  | .field key :: way, .record origin fields =>
    match fields.find? (·.1 = key) with
    | some (_, inner) => originAt way inner
    | none => origin
  | _, layered => layered.origin

end Layered

/-! ## The layers -/

def defaultLayer : Layered := .of .defaults (toValue {})

/-- The environment: names and values of variables. -/
abbrev Environment := List (String × String)

/-- Whether a name begins with a text, where upper and lower case ASCII letters are the same. -/
def beginsWith (start name : String) : Bool :=
  (start.toList.map Char.toLower).isPrefixOf (name.toList.map Char.toLower)

/-- The way that the rest of a variable's name stands for: its parts between points, where two
underscores count as a point. A name with an empty part stands for none. -/
def wayOf? (rest : String) : Option (List String) :=
  let name := Text.trimChars (Text.replacePair '_' '_' ['.'] rest.toList)
  let parts := (Text.splitOn '.' name).map fun cs => String.ofList (cs.map Char.toLower)
  if parts.contains "" then none else some parts

/-- The layer with a value at the end of a way. -/
def nested (origin : Origin) (v : Value) : List String → Layered
  | [] => .of origin v
  | key :: way => .field origin key (nested origin v way)

/-- The layer of a variable, if its name has the beginning and stands for a way. -/
def variableLayer? (start : String) (given : String × String) : Option Layered :=
  let name := Text.trim given.1
  if beginsWith start name then
    (wayOf? (String.ofList (name.toList.drop start.toList.length))).map
      (nested (.environment start) (valueOf given.2))
  else none

/-- The layer of all variables whose names have the beginning; later ones lie over earlier ones. -/
def environmentLayer (start : String) (environment : Environment) : Layered :=
  (environment.filterMap (variableLayer? start)).foldl (fun earlier later => later.above earlier)
    (.record (.environment start) [])

/-! ## Reading the layers -/

/-- The text of a mismatch in layers: what is wrong, the way to it, and where it comes from. -/
def mismatchText (layers : Layered) (m : Mismatch) : String :=
  let origin := layers.originAt m.path
  s!"{m.misfit.settingsMessage} for key {Text.quoted (origin.key m.path)} in {origin.text}"

def extracting : String := "Failed to extract configuration"

def extract (layers : Layered) : Except Error Settings :=
  match read .settings layers.plain with
  | .ok settings => .ok settings
  | .error m => .error (Context.configuration extracting (mismatchText layers m))

end ComponentWiring.Settings
