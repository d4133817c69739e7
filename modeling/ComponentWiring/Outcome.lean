import ComponentWiring.Identity

/-! # Outcomes of ordering a graph

* `Outcome`: an order of all components, or a cycle.
-/

namespace ComponentWiring
open Data
set_option autoImplicit false

/-- The result of ordering a dependency graph: all components with dependencies first, or a cycle
that starts and ends with the same component. -/
inductive Outcome where
  | ordered (order : List Identity)
  | cycle (path : List Identity)
  deriving DecidableEq

namespace Outcome

def isOrdered : Outcome → Bool
  | ordered _ => true
  | cycle _ => false

/-- The components of the order or of the cycle. -/
def identities : Outcome → List Identity
  | ordered order => order
  | cycle path => path

def toValue : Outcome → Value
  | ordered order => .record [("Ordered", .list (order.map (·.toValue)))]
  | cycle path => .record [("CycleDetected", .list (path.map (·.toValue)))]

def read : Reader Outcome :=
  tagged
    [("Ordered", fun v => do pure (ordered (← Reader.list Identity.read v))),
     ("CycleDetected", fun v => do pure (cycle (← Reader.list Identity.read v)))]

end Outcome

end ComponentWiring
