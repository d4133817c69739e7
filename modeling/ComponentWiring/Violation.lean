import ComponentWiring.Declaration

/-! # Violations

* `Severity`, `Category`: how bad a violation is, and what it is about.
* `Reason`: the rules that a declaration can break.
* `DeclarationViolation`: a declaration and the rule that it breaks.
* `CycleViolation`: a dependency cycle.
* `Violation`: what sinks and reports see of any violation.
-/

namespace ComponentWiring
open Data
set_option autoImplicit false

/-- How bad a violation is. -/
inductive Severity where
  | error
  | warning
  | info
  deriving DecidableEq

namespace Severity

/-- The name of a severity in data. -/
def name : Severity → String
  | error => "Error"
  | warning => "Warning"
  | info => "Info"

/-- The name of a severity in texts. -/
def label : Severity → String
  | error => "ERROR"
  | warning => "WARNING"
  | info => "INFO"

def toValue (severity : Severity) : Value := .text severity.name

def read : Reader Severity :=
  choice .json "Severity" [("Error", error), ("Warning", warning), ("Info", info)]

end Severity

/-- What a violation is about. -/
inductive Category where
  | declaration
  | structural
  deriving DecidableEq

namespace Category

/-- The name of a category. -/
def name : Category → String
  | declaration => "Declaration"
  | structural => "Structure"

def toValue (category : Category) : Value := .text category.name

def read : Reader Category :=
  choice .json "ViolationCategory" [("Declaration", declaration), ("Structure", structural)]

end Category

/-- The rules that a declaration can break. -/
inductive Reason where
  | isInterface
  | isAbstract
  | missingNoArgConstructor
  deriving DecidableEq

namespace Reason

def code : Reason → String
  | isInterface => "IsInterface"
  | isAbstract => "IsAbstract"
  | missingNoArgConstructor => "MissingNoArgConstructor"

def toValue (reason : Reason) : Value := .text reason.code

def read : Reader Reason :=
  choice .json "ViolationReason"
    [("IsInterface", isInterface), ("IsAbstract", isAbstract),
     ("MissingNoArgConstructor", missingNoArgConstructor)]

/-- The number of a reason among all violations. -/
def id : Reason → String
  | isInterface => "DI001"
  | isAbstract => "DI002"
  | missingNoArgConstructor => "DI003"

end Reason

/-- What sinks and reports see of a violation. The identities are components, the location is a
place. -/
structure Violation where
  id : String
  reason : String
  category : Category
  severity : Severity
  identities : List Identity
  location : Option Location
  message : String
  suggestion : Option String
  deriving DecidableEq

/-! ## Declarations that break a rule -/

/-- A component whose declaration breaks a rule. -/
structure DeclarationViolation where
  reason : Reason
  identity : Identity
  location : Option Location
  deriving DecidableEq

namespace DeclarationViolation

def of (reason : Reason) (declaration : Declaration) : DeclarationViolation :=
  ⟨reason, declaration.identity, declaration.location⟩

def message (v : DeclarationViolation) : String :=
  let name := v.identity.name
  match v.reason with
  | .isInterface =>
    s!"{name} cannot be an interface because it is declared as a singleton component"
  | .isAbstract => s!"{name} cannot be abstract because it is declared as a singleton component"
  | .missingNoArgConstructor =>
    s!"{name} must have a no-arg or default constructor because " ++
      "it is declared as a singleton component"

def suggestion (v : DeclarationViolation) : String :=
  let name := v.identity.simpleName
  match v.reason with
  | .isInterface => s!"Declare a concrete implementation of {name} as the component instead"
  | .isAbstract => s!"Make {name} concrete or declare a concrete subtype"
  | .missingNoArgConstructor => s!"Add a public zero-argument constructor to {name}"

def toViolation (v : DeclarationViolation) : Violation where
  id := v.reason.id
  reason := v.reason.code
  category := .declaration
  severity := .error
  identities := [v.identity]
  location := v.location
  message := v.message
  suggestion := some v.suggestion

/-- The violation as data: its reason, with the component and its place. -/
def toValue (v : DeclarationViolation) : Value :=
  .record
    [(v.reason.code, .record
      [("identity", v.identity.toValue),
       ("location", match v.location with
          | some location => location.toValue
          | none => .null)])]

end DeclarationViolation

/-! ## Dependency cycles -/

/-- A dependency cycle; its first component stands again at the end. -/
structure CycleViolation where
  path : List Identity
  deriving DecidableEq

namespace CycleViolation

def pathText (v : CycleViolation) : String := Identity.pathText v.path

/-- The component of a cycle that has only one. -/
def selfDependent? (v : CycleViolation) : Option Identity :=
  match v.path with
  | [a, _] => some a
  | _ => none

def message (v : CycleViolation) : String :=
  match v.selfDependent? with
  | some a => s!"Component {a.name} depends on itself"
  | none => s!"Circular dependency: {v.pathText}"

def suggestion (v : CycleViolation) : String :=
  match v.selfDependent? with
  | some a => s!"Remove {a.name} from its own dependencies"
  | none =>
    "Remove one dependency of the cycle or extract the shared part into a separate component"

def toViolation (v : CycleViolation) : Violation where
  id := "DI004"
  reason := "DependencyCycle"
  category := .structural
  severity := .error
  identities := v.path
  location := none
  message := v.message
  suggestion := some v.suggestion

end CycleViolation

end ComponentWiring
