import ComponentWiring.Declaration
import ComponentWiring.Event
import ComponentWiring.Graph.Basic
import ComponentWiring.Seen

/-! # Building the graph from declarations

The first declaration of an identity puts its component and its dependencies into the graph; later
ones change nothing.

* `Builder`: a graph and the identities that were declared or marked.
* `Builder.add`: adds a declaration.
-/

namespace ComponentWiring
open Data
set_option autoImplicit false

/-- A graph under construction and the identities whose declarations are no longer taken. -/
structure Builder where
  graph : Graph
  seen : Seen
  deriving DecidableEq

namespace Builder

def empty : Builder := ⟨Graph.empty, Seen.empty⟩

/-- The graph with a declared component and the edges to what it depends on. -/
def insertInto (g : Graph) (declaration : Declaration) : Graph :=
  declaration.dependencies.foldl (fun g b => g.addEdge declaration.identity b)
    (g.declare declaration.identity)

/-- Whether a declaration is taken. -/
def takes (builder : Builder) (declaration : Declaration) : Bool :=
  !builder.seen.has declaration.identity

def add (builder : Builder) (declaration : Declaration) : Builder :=
  if builder.takes declaration then
    ⟨insertInto builder.graph declaration, builder.seen.insert declaration.identity⟩
  else builder

/-- The event that tells what became of a declaration. -/
def addEvent (builder : Builder) (declaration : Declaration) : Event :=
  if builder.takes declaration then
    ⟨.trace, "Declaration inserted",
      [("identity", .text declaration.identity.name),
       ("dependencies", .natural declaration.dependencies.length),
       ("was_placeholder", .bool (builder.graph.contains declaration.identity))]⟩
  else
    ⟨.trace, "Already in graph, skipping", [("identity", .text declaration.identity.name)]⟩

def addAll (builder : Builder) (declarations : List Declaration) : Builder :=
  declarations.foldl add builder

/-- Marks an identity without putting it into the graph, and tells whether that is new. -/
def mark (builder : Builder) (a : Identity) : Bool × Builder :=
  (!builder.seen.has a, { builder with seen := builder.seen.insert a })

end Builder

end ComponentWiring
