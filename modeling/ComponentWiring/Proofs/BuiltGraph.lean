import ComponentWiring.Graph.Builder
import ComponentWiring.Proofs.OrderOrCycle

/-! # Graphs built from declarations

What a builder holds once it was given declarations, read off the declarations alone.

* `Declaration.Mentions`: a declaration declares a component or depends on it.
* `Builder.mem_edges_insertInto`: a declaration brings the edges to its dependencies, and no other.
* `Builder.Holds`: a builder holds declarations: their identities are seen, and its graph has what
  they mention and the edges that they give.
* `Builder.holds_addAll`: the builder that was given declarations of different components holds
  them.
* `Builder.Holds.listed`: an order of its graph lists what they mention, dependencies first.
-/

namespace ComponentWiring
set_option autoImplicit false

def Declaration.Mentions (d : Declaration) (a : Identity) : Prop :=
  a = d.identity ∨ a ∈ d.dependencies

/-- Each component that declarations mention once and nothing else, and each that is declared after
all that its declaration depends on. -/
structure Declaration.Listed (ds : List Declaration) (order : List Identity) : Prop where
  nodup : order.Nodup
  mem_iff : ∀ a, a ∈ order ↔ ∃ d ∈ ds, d.Mentions a
  before : ∀ d ∈ ds, ∀ b ∈ d.dependencies, order.idxOf b < order.idxOf d.identity

namespace Builder
open ComponentWiring.Graph

/-! ## One declaration -/

section AddEdges
variable {g : Graph} (a : Identity) (bs : List Identity)

theorem wellFormed_addEdges (h : g.WellFormed) :
    (bs.foldl (fun g b => g.addEdge a b) g).WellFormed := by
  induction bs generalizing g with
  | nil => exact h
  | cons b bs ih => exact ih (h.addEdge a b)

theorem mem_identities_addEdges (h : g.WellFormed) (ha : a ∈ g.identities) (x : Identity) :
    x ∈ (bs.foldl (fun g b => g.addEdge a b) g).identities ↔ x ∈ g.identities ∨ x ∈ bs := by
  induction bs generalizing g with
  | nil => simp
  | cons b bs ih =>
    have ha' : a ∈ (g.addEdge a b).identities :=
      (mem_identities_addEdge h.indexed a b a).2 (Or.inl ha)
    rw [List.foldl_cons, ih (h.addEdge a b) ha', mem_identities_addEdge h.indexed, List.mem_cons]
    constructor
    · rintro ((hx | rfl | hx) | hx)
      · exact Or.inl hx
      · exact Or.inl ha
      · exact Or.inr (Or.inl hx)
      · exact Or.inr (Or.inr hx)
    · rintro (hx | hx | hx)
      · exact Or.inl (Or.inl hx)
      · exact Or.inl (Or.inr (Or.inr hx))
      · exact Or.inr hx

theorem mem_edges_addEdges (h : g.WellFormed) (x y : Identity) :
    (x, y) ∈ (bs.foldl (fun g b => g.addEdge a b) g).edges ↔
      (x, y) ∈ g.edges ∨ (x = a ∧ y ∈ bs) := by
  induction bs generalizing g with
  | nil => simp
  | cons b bs ih =>
    rw [List.foldl_cons, ih (h.addEdge a b), mem_edges_addEdge h, or_assoc, ← and_or_left,
      List.mem_cons]

end AddEdges

section Insert
variable {g : Graph} (d : Declaration)

theorem wellFormed_insertInto (h : g.WellFormed) : (insertInto g d).WellFormed :=
  wellFormed_addEdges _ _ (h.declare d.identity)

theorem mem_identities_insertInto (h : g.WellFormed) (x : Identity) :
    x ∈ (insertInto g d).identities ↔ x ∈ g.identities ∨ d.Mentions x := by
  have hdeclared : ∀ y, y ∈ (g.declare d.identity).identities ↔ y ∈ g.identities ∨ y = d.identity :=
    fun y => by rw [identities_declare, mem_identities_ensure h.indexed]
  rw [insertInto, mem_identities_addEdges _ _ (h.declare d.identity) ((hdeclared _).2 (Or.inr rfl)),
    hdeclared, or_assoc]
  rfl

/-- A declaration brings the edges to its dependencies, and no other. -/
theorem mem_edges_insertInto (h : g.WellFormed) (x y : Identity) :
    (x, y) ∈ (insertInto g d).edges ↔
      (x, y) ∈ g.edges ∨ (x = d.identity ∧ y ∈ d.dependencies) := by
  rw [insertInto, mem_edges_addEdges _ _ (h.declare d.identity), mem_edges_declare h]

end Insert

/-! ## All declarations -/

/-- A builder that was given declarations, and nothing else. -/
structure Holds (b : Builder) (ds : List Declaration) : Prop where
  wellFormed : b.graph.WellFormed
  has_iff : ∀ a, b.seen.has a = true ↔ a ∈ ds.map (·.identity)
  mem_identities_iff : ∀ a, a ∈ b.graph.identities ↔ ∃ d ∈ ds, d.Mentions a
  dependsOn_iff : ∀ a c, b.graph.DependsOn a c ↔ ∃ d ∈ ds, d.identity = a ∧ c ∈ d.dependencies

theorem holds_empty : empty.Holds [] where
  wellFormed := wellFormed_empty
  has_iff := by simp [empty]
  mem_identities_iff := by simp [empty, Graph.empty, identities]
  dependsOn_iff := by simp [empty, Graph.empty, Graph.DependsOn, edges]

theorem add_of_notMem {b : Builder} {ds : List Declaration} (h : b.Holds ds) {d : Declaration}
    (hd : d.identity ∉ ds.map (·.identity)) :
    b.add d = ⟨insertInto b.graph d, b.seen.insert d.identity⟩ := by
  have hnew : b.seen.has d.identity = false := by
    rw [← Bool.not_eq_true, h.has_iff]
    exact hd
  simp [add, takes, hnew]

theorem Holds.add {b : Builder} {ds : List Declaration} (h : b.Holds ds) {d : Declaration}
    (hd : d.identity ∉ ds.map (·.identity)) : (b.add d).Holds (ds ++ [d]) := by
  rw [add_of_notMem h hd]
  constructor
  case wellFormed => exact wellFormed_insertInto d h.wellFormed
  case has_iff =>
    intro a
    simp only [Seen.has_insert, Bool.or_eq_true, decide_eq_true_eq, h.has_iff, List.map_append,
      List.map_singleton, List.mem_append, List.mem_singleton]
    exact or_comm
  case mem_identities_iff =>
    intro a
    simp only [mem_identities_insertInto d h.wellFormed, h.mem_identities_iff, List.mem_append,
      List.mem_singleton, or_and_right, exists_or, exists_eq_left]
  case dependsOn_iff =>
    intro a c
    have hold := h.dependsOn_iff a c
    unfold Graph.DependsOn at hold ⊢
    simp only [mem_edges_insertInto d h.wellFormed, hold, List.mem_append, List.mem_singleton,
      or_and_right, exists_or, exists_eq_left, eq_comm (a := a)]

theorem addAll_concat (b : Builder) (ds : List Declaration) (d : Declaration) :
    b.addAll (ds ++ [d]) = (b.addAll ds).add d := by
  simp [addAll]

theorem addAll_append (b : Builder) (ds es : List Declaration) :
    b.addAll (ds ++ es) = (b.addAll ds).addAll es :=
  List.foldl_append

theorem holds_addAll (ds : List Declaration) (h : (ds.map (·.identity)).Nodup) :
    (empty.addAll ds).Holds ds := by
  induction ds using List.reverseRecOn with
  | nil => exact holds_empty
  | append_singleton ds d ih =>
    rw [List.map_append, List.nodup_append] at h
    obtain ⟨hds, -, hne⟩ := h
    rw [addAll_concat]
    apply (ih hds).add
    intro hmem
    exact hne _ hmem d.identity List.mem_cons_self rfl

theorem Holds.listed {b : Builder} {ds : List Declaration} (h : b.Holds ds) {order : List Identity}
    (ho : b.graph.Orders order) : Declaration.Listed ds order where
  nodup := ho.nodup
  mem_iff := by
    intro a
    rw [ho.mem_iff, h.mem_identities_iff]
  before := by
    intro d hd c hc
    exact ho.before _ _ ((h.dependsOn_iff _ _).2 ⟨d, hd, rfl, hc⟩)

end Builder

end ComponentWiring
