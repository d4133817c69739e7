import ComponentWiring.Proofs.SearchInvariant
import ComponentWiring.Violation
import Mathlib

/-! # Orders and cycles

Ordering a graph that the graph operations lead to succeeds if and only if no component depends on
itself over any number of edges.

* `Graph.Acyclic`: no component depends on itself.
* `Graph.Orders`: a list has every component of a graph once, dependencies first.
* `Graph.IsCycle`: a list goes along edges and comes back to its start, without other repeats.
* `Graph.ordered_iff_acyclic`: an order is found exactly without a cycle, and it orders the graph.
* `Graph.cycle_is_simple`: a cycle that is found is one of the graph, and its violation tells of a
  component that depends on itself if and only if it is an edge from a component to itself.
-/

set_option autoImplicit false

/-! ## Components for concrete cases -/

namespace ComponentWiring.Sample

def app : Identity := ⟨"app", by decide, by decide⟩

def store : Identity := ⟨"store", by decide, by decide⟩

end ComponentWiring.Sample

/-! ## What a cycle's violation tells -/

namespace ComponentWiring.CycleViolation

theorem selfDependent?_eq_some_iff (v : CycleViolation) (a : Identity) :
    v.selfDependent? = some a ↔ ∃ b, v.path = [a, b] := by
  unfold selfDependent?
  split
  · next a' b hpath => simp [hpath]
  · next hpath =>
    constructor
    · intro h
      cases h
    · rintro ⟨b, hb⟩
      exact absurd hb (hpath a b)

theorem message_eq_iff (v : CycleViolation) (a : Identity) :
    v.message = s!"Component {a.name} depends on itself" ↔ v.selfDependent? = some a := by
  unfold message
  split
  · next b hb =>
    rw [hb, Option.some.injEq]
    constructor
    · intro h
      have hname : b.name = a.name :=
        (String.append_right_inj _).1 ((String.append_left_inj _).1 h)
      exact Identity.ext_name hname
    · rintro rfl
      rfl
  · next hnone =>
    rw [hnone]
    constructor
    · intro h
      -- the two messages differ in their second character
      have hchars := congrArg (fun text => text.toList[1]?) h
      simp [toString] at hchars
    · intro h
      cases h

end ComponentWiring.CycleViolation

namespace ComponentWiring.Graph
open Search

def DependsOn (g : Graph) (a b : Identity) : Prop := (a, b) ∈ g.edges

/-- No component depends on itself, directly or over others. -/
def Acyclic (g : Graph) : Prop := ∀ a, ¬ Relation.TransGen g.DependsOn a a

/-- Every component of a graph once, and each after all that it depends on. -/
structure Orders (g : Graph) (order : List Identity) : Prop where
  nodup : order.Nodup
  mem_iff : ∀ a, a ∈ order ↔ a ∈ g.identities
  before : ∀ a b, g.DependsOn a b → order.idxOf b < order.idxOf a

/-- A way along edges that ends where it starts and passes no other component twice. -/
structure IsCycle (g : Graph) (c : List Identity) : Prop where
  two_le : 2 ≤ c.length
  closed : c.head? = c.getLast?
  nodup : c.dropLast.Nodup
  chain : c.IsChain g.DependsOn

/-! ## Lists of numbers as lists of components -/

section Numbers
variable {g : Graph}

@[simp] theorem identitiesOf_append (g : Graph) (ids ids' : List Nat) :
    g.identitiesOf (ids ++ ids') = g.identitiesOf ids ++ g.identitiesOf ids' :=
  List.filterMap_append

theorem identitiesOf_cons {i : Nat} {a : Identity} (h : g.identity? i = some a) (ids : List Nat) :
    g.identitiesOf (i :: ids) = a :: g.identitiesOf ids :=
  List.filterMap_cons_some h

theorem nodup_identitiesOf (hg : g.Indexed) {ids : List Nat} (h : ids.Nodup) :
    (g.identitiesOf ids).Nodup :=
  List.Nodup.filterMap (fun _ _ _ hi hj => identity?_inj hg hi hj) h

theorem isChain_identitiesOf {ids : List Nat} (hlt : ∀ i ∈ ids, i < g.size)
    (h : ids.IsChain fun i j => j ∈ g.neighbors i) : (g.identitiesOf ids).IsChain g.DependsOn := by
  induction h with
  | nil => exact .nil
  | singleton i =>
    obtain ⟨a, ha⟩ := exists_identity? (hlt i List.mem_cons_self)
    rw [identitiesOf_cons ha]
    exact .singleton a
  | @cons_cons i j ids hij _ ih =>
    obtain ⟨a, ha⟩ := exists_identity? (hlt i List.mem_cons_self)
    obtain ⟨b, hb⟩ := exists_identity? (hlt j (List.mem_cons_of_mem i List.mem_cons_self))
    have htail := ih fun k hk => hlt k (List.mem_cons_of_mem i hk)
    rw [identitiesOf_cons hb] at htail
    rw [identitiesOf_cons ha, identitiesOf_cons hb]
    exact .cons_cons ((mem_edges_iff g a b).2 ⟨i, j, ha, hij, hb⟩) htail

end Numbers

/-! ## Where the search ends with an order -/

theorem mem_back_of_closed {g : Graph} {front back : List Nat} {v w : Nat}
    (h : Closed g (front ++ v :: back)) (hw : w ∈ g.neighbors v) : w ∈ back := by
  induction front with
  | nil => exact h.1 w hw
  | cons _ front ih => exact ih h.2

theorem orders_of_finished {g : Graph} (hg : g.WellFormed) {s : Search} (h : Invariant g s)
    (hroots : s.roots = []) (hpath : s.path = []) :
    g.Orders (g.identitiesOf s.finished.reverse) := by
  have hentered : s.entered = s.finished := by simp [entered, hpath]
  have hall : ∀ i < g.size, i ∈ s.finished := by
    intro i hi
    rcases h.covered i hi with hroot | hin
    · rw [hroots] at hroot
      exact absurd hroot List.not_mem_nil
    · rwa [hentered] at hin
  have hnodup : s.finished.Nodup := hentered ▸ h.nodup
  have hids : (g.identitiesOf s.finished.reverse).Nodup :=
    nodup_identitiesOf hg.indexed (List.nodup_reverse.2 hnodup)
  refine ⟨hids, fun a => ?_, fun a b hab => ?_⟩
  · rw [mem_identitiesOf, mem_identities_iff]
    constructor
    · rintro ⟨i, -, hi⟩
      exact ⟨i, hi⟩
    · rintro ⟨i, hi⟩
      exact ⟨i, List.mem_reverse.2 (hall i (lt_size_of_identity? hi)), hi⟩
  · obtain ⟨i, j, hi, hj, hjb⟩ := (mem_edges_iff g a b).1 hab
    obtain ⟨front, back, hsplit⟩ := List.append_of_mem (hall i (lt_size_of_identity? hi))
    have hback : j ∈ back := mem_back_of_closed (hsplit ▸ h.closed) hj
    have hb : b ∈ g.identitiesOf back.reverse :=
      (mem_identitiesOf g _ b).2 ⟨j, List.mem_reverse.2 hback, hjb⟩
    have horder : g.identitiesOf s.finished.reverse =
        g.identitiesOf back.reverse ++ a :: g.identitiesOf front.reverse := by
      rw [hsplit, List.reverse_append, List.reverse_cons, List.append_assoc, identitiesOf_append,
        List.singleton_append, identitiesOf_cons hi]
    have ha : a ∉ g.identitiesOf back.reverse := by
      rw [horder] at hids
      intro hmem
      exact (List.nodup_append.1 hids).2.2 a hmem a List.mem_cons_self rfl
    rw [horder, List.idxOf_append_of_mem hb, List.idxOf_append_of_notMem ha]
    exact Nat.lt_add_right _ (List.idxOf_lt_length_of_mem hb)

/-! ## Where the search ends with a cycle -/

theorem isChain_trail {g : Graph} {finished onward : List Nat} {path : List Frame}
    (h : Trail g finished onward path) :
    (path.map (·.vertex)).IsChain fun w v => w ∈ g.neighbors v := by
  rw [List.isChain_map]
  exact h.behind.imp fun after frame ⟨looked, hsplit⟩ => by simp [hsplit]

/-- The part of the path from a component on, closed by that component. -/
theorem exists_cycleFrom_eq {s : Search} {v : Nat} (hv : v ∈ s.vertices) :
    ∃ before behind, s.vertices = before ++ v :: behind ∧ s.cycleFrom v = v :: (behind ++ [v]) := by
  obtain ⟨before, behind, hsplit, hbefore⟩ := List.eq_append_cons_of_mem hv
  refine ⟨before, behind, hsplit, ?_⟩
  have hdrop : s.vertices.dropWhile (· ≠ v) = v :: behind := by
    rw [hsplit, List.dropWhile_append_of_pos]
    · simp
    · intro w hw
      have hne : w ≠ v := fun heq => hbefore (heq ▸ hw)
      simp [hne]
  rw [cycleFrom, if_pos hv, hdrop, List.cons_append]

theorem exists_cycle_of_gray {g : Graph} {s : Search} (h : Invariant g s)
    {u v : Nat} {ahead : List Nat} {path : List Frame} (hpath : s.path = ⟨u, v :: ahead⟩ :: path)
    (hgray : s.markOf v = .gray) :
    ∃ behind, s.cycleFrom v = v :: (behind ++ [v]) ∧ (v :: behind).Nodup ∧
      (∀ i ∈ v :: behind, i < g.size) ∧
      (v :: (behind ++ [v])).IsChain fun i j => j ∈ g.neighbors i := by
  have hrev : s.vertices = (s.path.map (·.vertex)).reverse := rfl
  have hnodup : s.vertices.Nodup := by
    rw [hrev, List.nodup_reverse]
    exact (List.nodup_append.1 h.nodup).1
  have hmem : v ∈ s.vertices := by
    rw [hrev, List.mem_reverse]
    exact (h.gray_iff v).1 hgray
  have hedge : v ∈ g.neighbors u := by
    obtain ⟨roots, _, marks, finished⟩ := s
    cases hpath
    exact h.mem_neighbors
  obtain ⟨before, behind, hsplit, hcycle⟩ := exists_cycleFrom_eq hmem
  have hchain : (s.vertices ++ [v]).IsChain fun i j => j ∈ g.neighbors i := by
    rw [hrev, ← List.reverse_cons, List.isChain_reverse]
    have htrail := isChain_trail h.trail
    rw [hpath] at htrail ⊢
    exact .cons_cons hedge htrail
  have hsuffix : v :: behind <:+ s.vertices := hsplit ▸ List.suffix_append before _
  refine ⟨behind, hcycle, hnodup.sublist hsuffix.sublist, fun i hi => ?_, ?_⟩
  · have hi' : i ∈ s.path.map (·.vertex) := by
      rw [← List.mem_reverse]
      exact hsuffix.subset hi
    exact h.inside i (List.mem_append_left _ hi')
  · rw [hsplit, List.append_assoc] at hchain
    exact hchain.right_of_append

theorem isCycle_of_closed {g : Graph} {a : Identity} {behind : List Identity}
    (hnodup : (a :: behind).Nodup) (hchain : (a :: (behind ++ [a])).IsChain g.DependsOn) :
    g.IsCycle (a :: (behind ++ [a])) where
  two_le := by simp
  closed := by
    rw [← List.cons_append, List.getLast?_concat]
    rfl
  nodup := by
    rw [← List.cons_append, List.dropLast_concat]
    exact hnodup
  chain := hchain

theorem isCycle_of_gray {g : Graph} (hg : g.WellFormed) {s : Search} (h : Invariant g s)
    {u v : Nat} {ahead : List Nat} {path : List Frame} (hpath : s.path = ⟨u, v :: ahead⟩ :: path)
    (hgray : s.markOf v = .gray) : g.IsCycle (g.identitiesOf (s.cycleFrom v)) := by
  obtain ⟨behind, hcycle, hnodup, hlt, hchain⟩ := exists_cycle_of_gray h hpath hgray
  obtain ⟨a, ha⟩ := exists_identity? (hlt v List.mem_cons_self)
  have hclosed : g.identitiesOf (v :: (behind ++ [v])) = a :: (g.identitiesOf behind ++ [a]) := by
    rw [identitiesOf_cons ha, identitiesOf_append, identitiesOf_cons ha]
    rfl
  have hlt' : ∀ i ∈ v :: (behind ++ [v]), i < g.size := by
    intro i hi
    rw [← List.cons_append, List.mem_append, List.mem_singleton] at hi
    rcases hi with hi | rfl
    · exact hlt i hi
    · exact hlt i List.mem_cons_self
  have hids := nodup_identitiesOf hg.indexed hnodup
  have hedges := isChain_identitiesOf hlt' hchain
  rw [identitiesOf_cons ha] at hids
  rw [hcycle, hclosed]
  rw [hclosed] at hedges
  exact isCycle_of_closed hids hedges

/-! ## Orders and cycles exclude each other -/

theorem Orders.lt_of_transGen {g : Graph} {order : List Identity} (h : g.Orders order)
    {a b : Identity} (hab : Relation.TransGen g.DependsOn a b) :
    order.idxOf b < order.idxOf a := by
  induction hab with
  | single hdep => exact h.before _ _ hdep
  | tail _ hdep ih => exact Nat.lt_trans (h.before _ _ hdep) ih

theorem Orders.acyclic {g : Graph} {order : List Identity} (h : g.Orders order) : g.Acyclic :=
  fun _ hself => Nat.lt_irrefl _ (h.lt_of_transGen hself)

theorem IsCycle.not_acyclic {g : Graph} {c : List Identity} (h : g.IsCycle c) : ¬ g.Acyclic := by
  intro hacyclic
  obtain ⟨htwo, hclosed, -, hchain⟩ := h
  rcases c with - | ⟨a, - | ⟨b, rest⟩⟩
  · simp at htwo
  · simp at htwo
  · obtain ⟨hab, hrest⟩ := List.isChain_cons_cons.1 hchain
    have hlast : (b :: rest).getLast (List.cons_ne_nil b rest) = a := by
      rw [List.head?_cons, List.getLast?_cons_cons,
        List.getLast?_eq_some_getLast (List.cons_ne_nil b rest)] at hclosed
      exact (Option.some.inj hclosed).symm
    have hback : Relation.ReflTransGen g.DependsOn b a :=
      List.relationReflTransGen_of_exists_isChain_cons rest hrest hlast
    exact hacyclic a (.head' hab hback)

/-! ## The outcome -/

theorem outcome_spec {g : Graph} (hg : g.WellFormed) :
    (∃ order, g.outcome = .ordered order ∧ g.Orders order) ∨
      ∃ c, g.outcome = .cycle c ∧ g.IsCycle c := by
  obtain ⟨e, hinv, ⟨order, hstep, hrun⟩ | ⟨c, hstep, hrun⟩⟩ := start_ends hg
  · obtain ⟨hroots, hpath, rfl⟩ := step_eq_ordered hstep
    exact Or.inl ⟨_, by rw [outcome, hrun], orders_of_finished hg hinv hroots hpath⟩
  · obtain ⟨u, v, ahead, path, hpath, hgray, rfl⟩ := step_eq_cycle hstep
    exact Or.inr ⟨_, by rw [outcome, hrun], isCycle_of_gray hg hinv hpath hgray⟩

theorem orders_of_outcome {g : Graph} (hg : g.WellFormed) {order : List Identity}
    (h : g.outcome = .ordered order) : g.Orders order := by
  rcases outcome_spec hg with ⟨order', heq, horders⟩ | ⟨c, heq, -⟩
  · rw [heq] at h
    cases h
    exact horders
  · rw [heq] at h
    cases h

theorem isCycle_of_outcome {g : Graph} (hg : g.WellFormed) {c : List Identity}
    (h : g.outcome = .cycle c) : g.IsCycle c := by
  rcases outcome_spec hg with ⟨order, heq, -⟩ | ⟨c', heq, hcycle⟩
  · rw [heq] at h
    cases h
  · rw [heq] at h
    cases h
    exact hcycle

theorem exists_ordered_iff {g : Graph} (hg : g.WellFormed) :
    (∃ order, g.outcome = .ordered order) ↔ g.Acyclic := by
  constructor
  · rintro ⟨order, h⟩
    exact (orders_of_outcome hg h).acyclic
  · intro hacyclic
    rcases outcome_spec hg with ⟨order, heq, -⟩ | ⟨c, -, hcycle⟩
    · exact ⟨order, heq⟩
    · exact absurd hacyclic hcycle.not_acyclic

/-- Ordering succeeds exactly without a cycle, and the order has every component once, dependencies
first. -/
theorem ordered_iff_acyclic (changes : List Change) :
    ((∃ order, (after changes).outcome = .ordered order) ↔ (after changes).Acyclic) ∧
      ∀ order, (after changes).outcome = .ordered order → (after changes).Orders order :=
  ⟨exists_ordered_iff (wellFormed_after changes),
    fun _ h => orders_of_outcome (wellFormed_after changes) h⟩

theorem IsCycle.eq_pair {g : Graph} {a b : Identity} (h : g.IsCycle [a, b]) :
    b = a ∧ g.DependsOn a a := by
  have hab : a = b := Option.some.inj h.closed
  subst hab
  exact ⟨rfl, (List.isChain_cons_cons.1 h.chain).1⟩

/-- A cycle that is found is a simple cycle of the graph, and its violation tells of a component
that depends on itself exactly for an edge from that component to itself. -/
theorem cycle_is_simple (changes : List Change) (c : List Identity)
    (h : (after changes).outcome = .cycle c) :
    (after changes).IsCycle c ∧
      (c.length = 2 ↔ ∃ a, c = [a, a] ∧ (after changes).DependsOn a a) ∧
      ∀ a, (CycleViolation.mk c).message = s!"Component {a.name} depends on itself" ↔
        c = [a, a] ∧ (after changes).DependsOn a a := by
  have hcycle := isCycle_of_outcome (wellFormed_after changes) h
  refine ⟨hcycle, ?_, fun a => ?_⟩
  · constructor
    · intro hlength
      obtain ⟨a, b, rfl⟩ := List.length_eq_two.1 hlength
      obtain ⟨rfl, hself⟩ := hcycle.eq_pair
      exact ⟨b, rfl, hself⟩
    · rintro ⟨a, rfl, -⟩
      rfl
  · rw [CycleViolation.message_eq_iff, CycleViolation.selfDependent?_eq_some_iff]
    constructor
    · rintro ⟨b, hb⟩
      have hpair : c = [a, b] := hb
      subst hpair
      obtain ⟨rfl, hself⟩ := hcycle.eq_pair
      exact ⟨rfl, hself⟩
    · rintro ⟨rfl, -⟩
      exact ⟨a, rfl⟩

theorem cycle_is_simple_of_two :
    (after [.addEdge Sample.app Sample.store, .addEdge Sample.store Sample.app]).outcome =
        .cycle [Sample.app, Sample.store, Sample.app] ∧
      (after [.addEdge Sample.app Sample.store, .addEdge Sample.store Sample.app]).IsCycle
        [Sample.app, Sample.store, Sample.app] := by
  have h : (after [.addEdge Sample.app Sample.store, .addEdge Sample.store Sample.app]).outcome =
      .cycle [Sample.app, Sample.store, Sample.app] := by cbv
  exact ⟨h, (cycle_is_simple _ _ h).1⟩

end ComponentWiring.Graph
