import ComponentWiring.Event
import ComponentWiring.Violation

/-! # Violations as log events

* `Severity.level`: the level of a severity.
* `Violation.event`: the event that tells of a violation.
-/

namespace ComponentWiring
open Data
set_option autoImplicit false

/-- The level at which violations of a severity are logged. -/
def Severity.level : Severity → Level
  | .error => .error
  | .warning => .warn
  | .info => .info

/-- The event that tells of a violation; without a location that field is empty. -/
def Violation.event (v : Violation) : Event :=
  ⟨v.severity.level, v.message,
    [("id", .text v.id), ("reason", .text v.reason),
     ("location", .text (match v.location with
        | some location => location.text
        | none => ""))]⟩

end ComponentWiring
