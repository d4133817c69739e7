import ComponentWiring.Event
import ComponentWiring.Graph.Basic
import ComponentWiring.Outcome

/-! # Ordering a graph, dependencies first

A depth first search with an explicit path. The components are tried in order of first mention, and
the dependencies of each in order of addition. A component is white before it is entered, gray while
it is on the path, and black once all its dependencies are finished. The first edge into a gray
component closes a cycle.

* `Search`: the state of the search.
* `Search.step`: one step of it.
* `Search.run`: the steps up to the end; white components, edges ahead on the path and roots bound
  their number.
* `Graph.order`: the outcome for a graph.
-/

namespace ComponentWiring
set_option autoImplicit false

/-- How far the search is with a component. -/
inductive Mark where
  | white
  | gray
  | black
  deriving DecidableEq

/-- A component on the path, with the dependencies that were not looked at yet. -/
structure Frame where
  vertex : Nat
  ahead : List Nat
  deriving DecidableEq

/-- The state of the search: the components still to be tried, the path with its end in front, the
marks, and the finished components with the latest in front. -/
structure Search where
  roots : List Nat
  path : List Frame
  marks : List Mark
  finished : List Nat
  deriving DecidableEq

/-- What a step leads to: another state, an order, or a cycle. -/
inductive Progress where
  | next (s : Search)
  | ordered (order : List Nat)
  | cycle (path : List Nat)
  deriving DecidableEq

namespace Search

/-- The mark of a component; one beyond the graph counts as finished. -/
def markOf (s : Search) (v : Nat) : Mark := s.marks[v]?.getD .black

/-- The path from its start to its end. -/
def vertices (s : Search) : List Nat := (s.path.map (·.vertex)).reverse

/-- The part of the path from a component on, and the component again. -/
def cycleFrom (s : Search) (v : Nat) : List Nat :=
  if v ∈ s.vertices then s.vertices.dropWhile (· ≠ v) ++ [v] else s.vertices ++ [v]

def enter (g : Graph) (s : Search) (v : Nat) : Search :=
  { s with path := ⟨v, g.neighbors v⟩ :: s.path, marks := s.marks.set v .gray }

/-- One step: the next dependency of the end of the path, or the end of the path is finished, or the
next root is tried. -/
def step (g : Graph) (s : Search) : Progress :=
  match s.path with
  | [] =>
    match s.roots with
    | [] => .ordered s.finished.reverse
    | root :: roots =>
      let s := { s with roots }
      if s.markOf root = .white then .next (s.enter g root) else .next s
  | frame :: path =>
    match frame.ahead with
    | [] =>
      .next { s with
        path
        marks := s.marks.set frame.vertex .black
        finished := frame.vertex :: s.finished }
    | v :: ahead =>
      let s := { s with path := { frame with ahead } :: path }
      match s.markOf v with
      | .white => .next (s.enter g v)
      | .gray => .cycle (s.cycleFrom v)
      | .black => .next s

/-! ## The end of the search -/

/-- The number of white components. -/
def whites (s : Search) : Nat := s.marks.count .white

/-- The components on the path, and the edges on it that were not looked at. -/
def pending (s : Search) : Nat := s.path.length + (s.path.flatMap (·.ahead)).length

theorem whites_enter_lt (g : Graph) (s : Search) (v : Nat) (h : s.markOf v = .white) :
    (s.enter g v).whites < s.whites := by
  have hv : s.marks[v]? = some .white := by
    unfold markOf at h
    cases hm : s.marks[v]? with
    | none => simp [hm] at h
    | some m => simpa [hm] using h
  obtain ⟨hlt, hget⟩ := List.getElem?_eq_some_iff.1 hv
  have hpos : 0 < s.marks.count .white := List.count_pos_iff.2 (hget ▸ List.getElem_mem hlt)
  have hset : (s.marks.set v .gray).count .white = s.marks.count .white - 1 := by
    rw [List.count_set hlt]
    simp [hget]
  simp only [whites, enter, hset]
  omega

theorem whites_set_black_le (s : Search) (v : Nat) :
    (s.marks.set v .black).count .white ≤ s.marks.count .white := by
  by_cases hlt : v < s.marks.length
  · rw [List.count_set hlt]
    simp
  · exact Nat.le_of_eq (by rw [List.set_eq_of_length_le (Nat.le_of_not_lt hlt)])

theorem step_decreases (g : Graph) (s s' : Search) (h : s.step g = .next s') :
    Prod.Lex (· < ·) (Prod.Lex (· < ·) (· < ·)) (s'.whites, s'.pending, s'.roots.length)
      (s.whites, s.pending, s.roots.length) := by
  obtain ⟨roots, path, marks, finished⟩ := s
  cases path with
  | nil =>
    cases roots with
    | nil => simp [step] at h
    | cons root roots =>
      simp only [step] at h
      split at h
      · cases h
        exact Prod.Lex.left _ _
          (whites_enter_lt g ⟨roots, [], marks, finished⟩ root (by assumption))
      · cases h
        refine Prod.Lex.right _ (Prod.Lex.right _ ?_)
        simp
  | cons frame path =>
    obtain ⟨vertex, ahead⟩ := frame
    cases ahead with
    | nil =>
      simp only [step, Progress.next.injEq] at h
      subst h
      have hle := whites_set_black_le ⟨roots, ⟨vertex, []⟩ :: path, marks, finished⟩ vertex
      rcases Nat.lt_or_eq_of_le hle with hlt | heq
      · exact Prod.Lex.left _ _ hlt
      · simp only [whites] at heq ⊢
        rw [heq]
        refine Prod.Lex.right _ (Prod.Lex.left _ _ ?_)
        simp [pending]
    | cons v ahead =>
      simp only [step] at h
      split at h
      · cases h
        exact Prod.Lex.left _ _
          (whites_enter_lt g ⟨roots, ⟨vertex, ahead⟩ :: path, marks, finished⟩ v (by assumption))
      · cases h
      · cases h
        refine Prod.Lex.right _ (Prod.Lex.left _ _ ?_)
        simp [pending]

/-- The steps up to an order or a cycle. -/
def run (g : Graph) (s : Search) : List Nat ⊕ List Nat :=
  match _h : s.step g with
  | .next s' => run g s'
  | .ordered order => .inl order
  | .cycle path => .inr path
termination_by (s.whites, s.pending, s.roots.length)
decreasing_by exact step_decreases g s s' _h

def start (g : Graph) : Search :=
  ⟨List.range g.size, [], List.replicate g.size .white, []⟩

end Search

namespace Graph

def outcome (g : Graph) : Outcome :=
  match (Search.start g).run g with
  | .inl order => .ordered (g.identitiesOf order)
  | .inr path => .cycle (g.identitiesOf path)

def outcomeEvent : Outcome → Event
  | .ordered order => ⟨.trace, "Graph ordered", [("vertices", .natural order.length)]⟩
  | .cycle path => ⟨.trace, "Cycle detected", [("length", .natural path.length)]⟩

/-- The outcome of ordering a graph, and the event that tells of it. -/
def order (g : Graph) : Logged Outcome := ⟨g.outcome, [outcomeEvent g.outcome]⟩

end Graph

end ComponentWiring
