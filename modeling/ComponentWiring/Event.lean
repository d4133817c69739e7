import ComponentWiring.Data.Value

/-! # Log events

* `Level`: how much an event matters.
* `Event`: a message with named values.
* `Logged`: a result and the events on the way to it.
-/

namespace ComponentWiring
open Data
set_option autoImplicit false

/-- How much an event matters, least first. -/
inductive Level where
  | trace
  | debug
  | info
  | warn
  | error
  deriving DecidableEq

namespace Level

/-- The name of a level as events show it. -/
def label : Level → String
  | trace => "TRACE"
  | debug => "DEBUG"
  | info => "INFO"
  | warn => "WARN"
  | error => "ERROR"

/-- The name of a level as settings give it. -/
def name : Level → String
  | trace => "trace"
  | debug => "debug"
  | info => "info"
  | warn => "warn"
  | error => "error"

end Level

/-- A message with named values. -/
structure Event where
  level : Level
  message : String
  fields : List (String × Value)

/-- A result and the events on the way to it, in order. -/
structure Logged (α : Type) where
  value : α
  events : List Event

namespace Logged

def silent {α : Type} (value : α) : Logged α := ⟨value, []⟩

def map {α β : Type} (f : α → β) (logged : Logged α) : Logged β := ⟨f logged.value, logged.events⟩

end Logged

end ComponentWiring
