import ComponentWiring.Event
import ComponentWiring.Violation

/-! # Checking declarations

* `Validator`: a check of single declarations.
* `brokenRule?`: the first rule that a declaration breaks.
* `Validator.declarations`: the check that components are concrete and can be made without
  arguments.
-/

namespace ComponentWiring
open Data
set_option autoImplicit false

/-- A check of single declarations, with what it logs. -/
structure Validator where
  name : String
  description : String
  check : Declaration → Logged (Option DeclarationViolation)

/-- The first rule that a declaration breaks: the kind counts before the constructor. -/
def brokenRule? (declaration : Declaration) : Option Reason :=
  match declaration.kind with
  | .interface => some .isInterface
  | .abstract => some .isAbstract
  | .concrete => if declaration.hasNoArgConstructor then none else some .missingNoArgConstructor

/-- The violation by a declaration, if it breaks a rule. -/
def violation? (declaration : Declaration) : Option DeclarationViolation :=
  (brokenRule? declaration).map fun reason => .of reason declaration

namespace Validator

/-- The event that tells of a declaration that breaks a rule. -/
def rejectedEvent (reason : Reason) (declaration : Declaration) : Event :=
  ⟨.trace, "Declaration rejected",
    [("identity", .text declaration.identity.name), ("reason", .text reason.code)]⟩

/-- The check that components are concrete and can be made without arguments. -/
def declarations : Validator where
  name := "declaration"
  description := "Validates that singleton components are concrete and have a no-arg constructor"
  check := fun declaration =>
    ⟨violation? declaration,
      match brokenRule? declaration with
      | some reason => [rejectedEvent reason declaration]
      | none => []⟩

/-- The check that every declaration passes. -/
def acceptAll (name description : String) : Validator where
  name
  description
  check := fun _ => .silent none

def checkAll (validator : Validator) (declarations : List Declaration) :
    Logged (List DeclarationViolation) :=
  let checks := declarations.map validator.check
  ⟨checks.filterMap (·.value), checks.flatMap (·.events)⟩

end Validator

end ComponentWiring
