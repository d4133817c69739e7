import ComponentWiring.Identity

/-! # The dependency graph

Vertices are numbered in the order in which their identities are first mentioned. A vertex that was
only mentioned as a dependency is a placeholder until it is declared. Beside the vertices a graph
keeps an index, which gives the number of an identity, and a counter of its edges.

* `Graph`: the vertices, each with the numbers of its dependencies in order of addition, the index
  and the counter.
* `Graph.ensure`, `Graph.declare`, `Graph.addEdge`: the ways to extend a graph.
* `Graph.clear`: drops everything.
* `Graph.identities`, `Graph.dependenciesOf?`, `Graph.edges`: what a graph says about identities.
-/

namespace ComponentWiring
set_option autoImplicit false

/-- A component of the graph and the numbers of the components that it depends on. -/
structure Vertex where
  identity : Identity
  edges : List Nat
  declared : Bool
  deriving DecidableEq

/-- The components in order of first mention, the number of each component with the latest in front,
and the number of different edges. -/
structure Graph where
  vertices : List Vertex
  index : List (Identity × Nat)
  edgeCount : Nat
  deriving DecidableEq

namespace Graph

def empty : Graph := ⟨[], [], 0⟩

def size (g : Graph) : Nat := g.vertices.length

/-- The number of a component, if the graph mentions it. -/
def vertexId? (g : Graph) (a : Identity) : Option Nat := g.index.lookup a

def contains (g : Graph) (a : Identity) : Bool := (g.vertexId? a).isSome

/-- The component of a number. -/
def identity? (g : Graph) (i : Nat) : Option Identity := (g.vertices[i]?).map (·.identity)

/-- The numbers of the dependencies of a number; a number beyond the graph has none. -/
def neighbors (g : Graph) (i : Nat) : List Nat :=
  match g.vertices[i]? with
  | some v => v.edges
  | none => []

/-- Whether a component was declared. The index has no number beyond the vertices. -/
def isDeclared (g : Graph) (a : Identity) : Bool :=
  match (g.vertexId? a).bind fun i => g.vertices[i]? with
  | some v => v.declared
  | none => false

/-- All components in order of first mention. -/
def identities (g : Graph) : List Identity := g.vertices.map (·.identity)

/-- The components that were mentioned and not declared. -/
def placeholders (g : Graph) : List Identity :=
  (g.vertices.filter fun v => !v.declared).map (·.identity)

/-- The components of numbers. -/
def identitiesOf (g : Graph) (ids : List Nat) : List Identity := ids.filterMap g.identity?

/-- The dependencies of a component in order of addition, if the graph mentions it. -/
def dependenciesOf? (g : Graph) (a : Identity) : Option (List Identity) :=
  (g.vertexId? a).map fun i => g.identitiesOf (g.neighbors i)

/-- The edges, from the first component on. -/
def edges (g : Graph) : List (Identity × Identity) :=
  g.vertices.flatMap fun v => (g.identitiesOf v.edges).map fun b => (v.identity, b)

/-- The number of a component after mentioning it. -/
def idAfterEnsure (g : Graph) (a : Identity) : Nat := (g.vertexId? a).getD g.size

/-- The graph that mentions a component, as a placeholder if it did not before. -/
def ensure (g : Graph) (a : Identity) : Graph :=
  if g.contains a then g
  else { g with vertices := g.vertices ++ [⟨a, [], false⟩], index := (a, g.size) :: g.index }

/-- The graph with another vertex in the place of a number. -/
def update (g : Graph) (i : Nat) (f : Vertex → Vertex) : Graph :=
  { g with vertices := g.vertices.modify i f }

def declare (g : Graph) (a : Identity) : Graph :=
  (g.ensure a).update (g.idAfterEnsure a) fun v => { v with declared := true }

/-- The graph that mentions both ends of an edge. -/
def ensureEnds (g : Graph) (a b : Identity) : Graph := (g.ensure a).ensure b

/-- Whether adding an edge changes the edges. -/
def isNewEdge (g : Graph) (a b : Identity) : Bool :=
  !((g.ensureEnds a b).neighbors (g.idAfterEnsure a)).contains ((g.ensure a).idAfterEnsure b)

/-- The graph with an edge from a component to one that it depends on. -/
def addEdge (g : Graph) (a b : Identity) : Graph :=
  let g' := g.ensureEnds a b
  if g.isNewEdge a b then
    let j := (g.ensure a).idAfterEnsure b
    { g'.update (g.idAfterEnsure a) fun v => { v with edges := v.edges ++ [j] } with
      edgeCount := g'.edgeCount + 1 }
  else g'

/-- The graph without its vertices, its index, and its count of edges. -/
def clear (g : Graph) : Graph := { g with vertices := [], index := [], edgeCount := 0 }

end Graph

end ComponentWiring
