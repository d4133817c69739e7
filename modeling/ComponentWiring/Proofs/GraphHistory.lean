import ComponentWiring.Proofs.GraphGrowth
import Mathlib.Data.List.DropRight

/-! # What a graph tells of its history

All that a graph says is told from the changes since it was last cleared, without a graph.

* `Graph.sinceClear`: the changes since the last clear.
* `Graph.mentioned`, `Graph.added`, `Graph.targets`: the components and edges that changes mention
  and the dependencies that they add, each once, in the order in which they come first.
* `Graph.Tracks`: the components, the dependencies and the declarations of a graph are those of a
  history.
* `Graph.Observes`: everything that a graph says, told from a history.
* `Graph.observes_after`: a graph says what its history since the last clear says.
-/

namespace ComponentWiring.Graph
set_option autoImplicit false

/-! ## What changes mention -/

namespace Change

/-- The components that a change mentions, in order. -/
def mentions : Change → List Identity
  | ensure a => [a]
  | declare a => [a]
  | addEdge a b => [a, b]
  | clear => []

/-- The edge that a change asks for. -/
def edge? : Change → Option (Identity × Identity)
  | addEdge a b => some (a, b)
  | _ => none

end Change

/-- The changes since the last clear. -/
def sinceClear (changes : List Change) : List Change :=
  changes.rtakeWhile fun c => c ≠ .clear

/-- The components that changes mention, in order of first mention. -/
def mentioned (h : List Change) : List Identity := (h.flatMap Change.mentions).eraseDups

/-- The different edges that changes ask for, in order of first addition. -/
def added (h : List Change) : List (Identity × Identity) := (h.filterMap Change.edge?).eraseDups

/-- The different dependencies that changes give a component, in order of first addition. -/
def targets (h : List Change) (a : Identity) : List Identity :=
  ((added h).filter (·.1 = a)).map (·.2)

section EraseDups
variable {α : Type} [BEq α] [LawfulBEq α]

theorem eraseDups_concat_of_mem {xs : List α} {x : α} (hx : x ∈ xs) :
    (xs ++ [x]).eraseDups = xs.eraseDups := by
  rw [List.eraseDups_append]
  simp [List.removeAll, hx]

theorem eraseDups_concat_of_notMem {xs : List α} {x : α} (hx : x ∉ xs) :
    (xs ++ [x]).eraseDups = xs.eraseDups ++ [x] := by
  rw [List.eraseDups_append]
  simp [List.removeAll, hx, List.eraseDups_cons]

theorem nodup_eraseDups (xs : List α) : xs.eraseDups.Nodup := by
  induction xs using List.reverseRecOn with
  | nil => exact List.nodup_nil
  | append_singleton xs x ih =>
    by_cases hx : x ∈ xs
    · rwa [eraseDups_concat_of_mem hx]
    · rw [eraseDups_concat_of_notMem hx, ← List.concat_eq_append]
      exact ih.concat fun hmem => hx (List.mem_eraseDups.1 hmem)

end EraseDups

theorem mem_mentioned (h : List Change) (a : Identity) :
    a ∈ mentioned h ↔ ∃ c ∈ h, a ∈ c.mentions := by
  rw [mentioned, List.mem_eraseDups, List.mem_flatMap]

theorem mem_added (h : List Change) (a b : Identity) : (a, b) ∈ added h ↔ .addEdge a b ∈ h := by
  rw [added, List.mem_eraseDups, List.mem_filterMap]
  constructor
  · rintro ⟨c, hc, hab⟩
    cases c with
    | addEdge x y =>
      cases hab
      exact hc
    | ensure x => cases hab
    | declare x => cases hab
    | clear => cases hab
  · exact fun hab => ⟨_, hab, rfl⟩

theorem targets_pairs (h : List Change) (a : Identity) :
    (targets h a).map (a, ·) = (added h).filter (·.1 = a) := by
  have hsame : ∀ p ∈ (added h).filter (·.1 = a), (a, p.2) = p := by
    rintro ⟨x, y⟩ hxy
    obtain rfl : x = a := of_decide_eq_true (List.mem_filter.1 hxy).2
    rfl
  rw [targets, List.map_map]
  exact (List.map_congr_left hsame).trans (List.map_id _)

theorem mem_targets (h : List Change) (a b : Identity) : b ∈ targets h a ↔ .addEdge a b ∈ h := by
  rw [← mem_added, targets, List.mem_map]
  constructor
  · rintro ⟨⟨x, y⟩, hxy, rfl⟩
    obtain ⟨hmem, hx⟩ := List.mem_filter.1 hxy
    obtain rfl : x = a := of_decide_eq_true hx
    exact hmem
  · exact fun hab => ⟨(a, b), List.mem_filter.2 ⟨hab, decide_eq_true rfl⟩, rfl⟩

/-- A component that is not mentioned has no dependencies. -/
theorem targets_of_notMem {h : List Change} {a : Identity} (ha : a ∉ mentioned h) :
    targets h a = [] := by
  rw [List.eq_nil_iff_forall_not_mem]
  intro b hb
  have hedge : .addEdge a b ∈ h := (mem_targets h a b).1 hb
  exact ha ((mem_mentioned h a).2 ⟨_, hedge, List.mem_cons_self⟩)

section Concat
variable (h : List Change)

theorem added_concat_of_none {c : Change} (hc : c.edge? = none) : added (h ++ [c]) = added h := by
  rw [added, List.filterMap_append, List.filterMap_cons_none hc, List.filterMap_nil,
    List.append_nil, added]

theorem mem_edges_asked (a b : Identity) :
    (a, b) ∈ h.filterMap Change.edge? ↔ .addEdge a b ∈ h := by
  rw [← mem_added, added, List.mem_eraseDups]

theorem targets_concat_of_new {a b : Identity} (hab : .addEdge a b ∉ h) (x : Identity) :
    targets (h ++ [.addEdge a b]) x =
      if x = a then targets h x ++ [b] else targets h x := by
  have hadded : added (h ++ [.addEdge a b]) = added h ++ [(a, b)] := by
    rw [added, List.filterMap_append]
    exact eraseDups_concat_of_notMem fun hmem => hab ((mem_edges_asked h a b).1 hmem)
  rw [targets, hadded, List.filter_append, List.map_append, ← targets]
  split
  · next hx => simp [hx]
  · next hx => simp [Ne.symm hx]

theorem added_concat_of_mem {a b : Identity} (hab : .addEdge a b ∈ h) :
    added (h ++ [.addEdge a b]) = added h := by
  rw [added, List.filterMap_append]
  exact eraseDups_concat_of_mem ((mem_edges_asked h a b).2 hab)

end Concat

/-! ## Vertices -/

section Vertices
variable {g : Graph}

theorem identity?_of_vertex {i : Nat} {v : Vertex} (hv : g.vertices[i]? = some v) :
    g.identity? i = some v.identity := by
  rw [identity?, hv]
  rfl

theorem exists_vertex_of_identity? {i : Nat} {a : Identity} (hi : g.identity? i = some a) :
    ∃ v, g.vertices[i]? = some v ∧ v.identity = a :=
  Option.map_eq_some_iff.1 hi

variable (hg : g.Indexed)
include hg

theorem identities_ensure_eq {xs : List Identity} (hxs : g.identities = xs.eraseDups)
    (a : Identity) : (g.ensure a).identities = (xs ++ [a]).eraseDups := by
  rw [identities_ensure hg, hxs]
  split
  · next ha => rw [eraseDups_concat_of_mem (List.mem_eraseDups.1 ha)]
  · next ha => rw [eraseDups_concat_of_notMem fun hmem => ha (List.mem_eraseDups.2 hmem)]

/-- The index leads to the vertex of a component. -/
theorem isDeclared_of_vertex {i : Nat} {v : Vertex} (hv : g.vertices[i]? = some v) :
    g.isDeclared v.identity = v.declared := by
  have hi : g.vertexId? v.identity = some i := (hg _ i).2 (identity?_of_vertex hv)
  rw [isDeclared, hi, Option.bind_some, hv]

theorem isDeclared_iff (a : Identity) :
    g.isDeclared a = true ↔
      ∃ (i : Nat) (v : Vertex), g.vertices[i]? = some v ∧ v.identity = a ∧ v.declared = true := by
  constructor
  · intro hdeclared
    have ha : (g.vertexId? a).isSome := by
      rw [isDeclared] at hdeclared
      cases hi : g.vertexId? a with
      | some i => rfl
      | none => simp [hi] at hdeclared
    obtain ⟨i, hi⟩ := Option.isSome_iff_exists.1 ha
    obtain ⟨v, hv, rfl⟩ := exists_vertex_of_identity? ((hg a i).1 hi)
    exact ⟨i, v, hv, rfl, isDeclared_of_vertex hg hv ▸ hdeclared⟩
  · rintro ⟨i, v, hv, rfl, hdeclared⟩
    rw [isDeclared_of_vertex hg hv, hdeclared]

theorem isDeclared_ensure (a x : Identity) :
    (g.ensure a).isDeclared x = true ↔ g.isDeclared x = true := by
  rw [isDeclared_iff (hg.ensure a), isDeclared_iff hg, ensure]
  split
  · exact Iff.rfl
  · -- a new vertex is a placeholder
    simp only [List.getElem?_append, List.getElem?_singleton]
    constructor
    · rintro ⟨i, v, hv, hx, hdeclared⟩
      split at hv
      · exact ⟨i, v, hv, hx, hdeclared⟩
      · split at hv
        · cases hv
          cases hdeclared
        · cases hv
    · rintro ⟨i, v, hv, hx, hdeclared⟩
      exact ⟨i, v, by rw [if_pos (List.getElem?_eq_some_iff.1 hv).1, hv], hx, hdeclared⟩

/-- A change of the vertex of a component changes at most whether this one is declared. -/
theorem isDeclared_update {k : Nat} {a : Identity} (hk : g.identity? k = some a)
    {f : Vertex → Vertex} (hf : ∀ v, (f v).identity = v.identity) (x : Identity) :
    (g.update k f).isDeclared x = true ↔
      (x = a ∧ ∃ v, g.vertices[k]? = some v ∧ (f v).declared = true) ∨
        (x ≠ a ∧ g.isDeclared x = true) := by
  have hvertex : ∀ i, (g.update k f).vertices[i]? =
      if k = i then g.vertices[i]?.map f else g.vertices[i]? := by
    intro i
    rw [update, List.getElem?_modify]
    split
    · rfl
    · exact Option.map_id'
  have hupdated : (g.update k f).Indexed := hg.of_eq rfl (identities_update g k hf)
  rw [isDeclared_iff hupdated, isDeclared_iff hg]
  simp only [hvertex]
  constructor
  · rintro ⟨i, v, hv, rfl, hdeclared⟩
    split at hv
    · next hki =>
      subst hki
      obtain ⟨w, hw, rfl⟩ := Option.map_eq_some_iff.1 hv
      have hwa : w.identity = a := Option.some.inj ((identity?_of_vertex hw).symm.trans hk)
      exact Or.inl ⟨(hf w).trans hwa, w, hw, hdeclared⟩
    · next hki =>
      refine Or.inr ⟨fun hva => hki ?_, i, v, hv, rfl, hdeclared⟩
      exact identity?_inj hg hk (hva ▸ identity?_of_vertex hv)
  · rintro (⟨rfl, v, hv, hdeclared⟩ | ⟨hne, i, v, hv, rfl, hdeclared⟩)
    · have hva : v.identity = x := Option.some.inj ((identity?_of_vertex hv).symm.trans hk)
      exact ⟨k, f v, by rw [if_pos rfl, hv, Option.map_some], (hf v).trans hva, hdeclared⟩
    · refine ⟨i, v, ?_, rfl, hdeclared⟩
      rw [if_neg, hv]
      rintro rfl
      exact hne (Option.some.inj ((identity?_of_vertex hv).symm.trans hk))

theorem isDeclared_declare (a x : Identity) :
    (g.declare a).isDeclared x = true ↔ g.isDeclared x = true ∨ x = a := by
  have hk := identity?_idAfterEnsure hg a
  obtain ⟨v, hv, -⟩ := exists_vertex_of_identity? hk
  refine (isDeclared_update (hg.ensure a) hk (f := fun v => { v with declared := true })
    (fun _ => rfl) x).trans ?_
  rw [isDeclared_ensure hg]
  by_cases hx : x = a
  · simp [hx, hv]
  · simp [hx]

theorem isDeclared_addEdge (a b x : Identity) :
    (g.addEdge a b).isDeclared x = true ↔ g.isDeclared x = true := by
  have hends := hg.ensureEnds a b
  have hk := identity?_ensureEnds_source hg a b
  have hold : (g.ensureEnds a b).isDeclared x = true ↔ g.isDeclared x = true := by
    rw [ensureEnds, isDeclared_ensure (hg.ensure a), isDeclared_ensure hg]
  rw [← hold, addEdge]
  dsimp only
  split
  · -- the vertex that gets the edge keeps its name and whether it is declared
    obtain ⟨v, hv, hva⟩ := exists_vertex_of_identity? hk
    have hdeclared : (g.ensureEnds a b).isDeclared a = v.declared :=
      hva ▸ isDeclared_of_vertex hends hv
    refine (isDeclared_update hends hk (f := fun v => { v with
      edges := v.edges ++ [(g.ensure a).idAfterEnsure b] }) (fun _ => rfl) x).trans ?_
    by_cases hx : x = a
    · simp [hx, hv, hdeclared]
    · simp [hx]
  · exact Iff.rfl

theorem placeholders_eq : g.placeholders = g.identities.filter fun a => !g.isDeclared a := by
  have hsame : ∀ v ∈ g.vertices, (!v.declared) = !g.isDeclared v.identity := by
    intro v hv
    obtain ⟨i, hi⟩ := List.mem_iff_getElem?.1 hv
    rw [isDeclared_of_vertex hg hi]
  rw [placeholders, identities, List.filter_map, List.filter_congr hsame]
  rfl

theorem dependenciesOf?_of_identity? {i : Nat} {a : Identity} (hi : g.identity? i = some a) :
    g.dependenciesOf? a = some (g.identitiesOf (g.neighbors i)) := by
  rw [dependenciesOf?, (hg a i).2 hi, Option.map_some]

theorem vertexId?_of_notMem {a : Identity} (ha : a ∉ g.identities) : g.vertexId? a = none := by
  rw [Option.eq_none_iff_forall_ne_some]
  exact fun i hi => ha ((mem_identities_iff g a).2 ⟨i, (hg a i).1 hi⟩)

theorem dependenciesOf?_of_notMem {a : Identity} (ha : a ∉ g.identities) :
    g.dependenciesOf? a = none := by
  rw [dependenciesOf?, vertexId?_of_notMem hg ha, Option.map_none]

theorem idxOf_of_identity? {i : Nat} {a : Identity} (hi : g.identity? i = some a) :
    g.identities.idxOf a = i := by
  rw [identity?_eq_getElem?] at hi
  obtain ⟨hlt, rfl⟩ := List.getElem?_eq_some_iff.1 hi
  exact hg.nodup.idxOf_getElem i hlt

/-- The index gives each component the place where it comes in the list of all. -/
theorem vertexId?_eq_idxOf? (a : Identity) : g.vertexId? a = g.identities.idxOf? a := by
  by_cases ha : a ∈ g.identities
  · obtain ⟨i, hi⟩ := exists_vertexId? hg ha
    obtain ⟨j, hj⟩ := Option.isSome_iff_exists.1 (List.isSome_idxOf?.2 ha)
    have hplace := idxOf_of_identity? hg ((hg a i).1 hi)
    rw [List.idxOf_eq_getD_idxOf?, hj, Option.getD_some] at hplace
    rw [hi, hj, hplace]
  · rw [vertexId?_of_notMem hg ha, List.idxOf?_eq_none_iff.2 ha]

end Vertices

/-! ## Edges -/

section Edges
variable {g : Graph}

theorem length_identitiesOf {ids : List Nat} (hids : ∀ i ∈ ids, i < g.size) :
    (g.identitiesOf ids).length = ids.length := by
  induction ids with
  | nil => rfl
  | cons i ids ih =>
    obtain ⟨hi, hids⟩ := List.forall_mem_cons.1 hids
    obtain ⟨a, ha⟩ := exists_identity? hi
    rw [identitiesOf, List.filterMap_cons_some ha, List.length_cons, List.length_cons, ← ih hids,
      identitiesOf]

/-- The counter is the number of edges, as every dependency is a component and none gets lost. -/
theorem edgeCount_eq (hg : g.WellFormed) : g.edgeCount = g.edges.length := by
  rw [hg.counted, edges, List.length_flatMap]
  congr 1
  refine List.map_congr_left fun v hv => ?_
  obtain ⟨i, hi⟩ := List.mem_iff_getElem?.1 hv
  have hlt : ∀ j ∈ v.edges, j < g.size := by
    rw [← neighbors_of_getElem? hi]
    exact hg.neighbors_lt i
  rw [List.length_map, length_identitiesOf hlt]

theorem isNewEdge_iff (hg : g.WellFormed) (a b : Identity) :
    g.isNewEdge a b = true ↔ (a, b) ∉ g.edges := by
  have hends := (extends_ensureEnds g a b).identity?_eq
  rw [← exists_edge_iff hg hends, ← isNewEdge_eq_false_iff hg.indexed, Bool.not_eq_false]

/-- A new edge is the last one of its component. -/
theorem neighbors_addEdge_of_new (hg : g.WellFormed) {a b : Identity} (hab : (a, b) ∉ g.edges) :
    ∃ k, (g.addEdge a b).identity? k = some b ∧ ∀ i,
      (g.addEdge a b).neighbors i =
        if (g.addEdge a b).identity? i = some a then g.neighbors i ++ [k] else g.neighbors i := by
  refine ⟨(g.ensure a).idAfterEnsure b, ?_, fun i => ?_⟩
  · rw [identity?_addEdge, identity?_ensureEnds_target hg.indexed]
  · rw [identity?_addEdge,
      neighbors_addEdge_of_isNewEdge hg.indexed a b ((isNewEdge_iff hg a b).2 hab)]

end Edges

/-! ## Graphs and histories -/

/-- The components, the dependencies and the declarations of a graph are those of a history. -/
structure Tracks (g : Graph) (h : List Change) : Prop where
  identities : g.identities = mentioned h
  targets : ∀ i a, g.identity? i = some a → g.identitiesOf (g.neighbors i) = targets h a
  declared : ∀ a, g.isDeclared a = true ↔ .declare a ∈ h

theorem tracks_empty : empty.Tracks [] where
  identities := rfl
  targets := fun _ _ hi => by simp [identity?, empty] at hi
  declared := fun _ => by simp [isDeclared, vertexId?, empty]

section Tracks
variable {g : Graph} {h : List Change} (hg : g.WellFormed) (ht : g.Tracks h)
include ht

theorem Tracks.mem_edges_iff (a b : Identity) : (a, b) ∈ g.edges ↔ .addEdge a b ∈ h := by
  rw [Graph.mem_edges_iff]
  constructor
  · rintro ⟨i, j, hi, hj, hjb⟩
    have hb : b ∈ g.identitiesOf (g.neighbors i) := (mem_identitiesOf g _ b).2 ⟨j, hj, hjb⟩
    rw [ht.targets i a hi] at hb
    exact (mem_targets h a b).1 hb
  · intro hab
    have ha : a ∈ g.identities := by
      rw [ht.identities, mem_mentioned]
      exact ⟨_, hab, List.mem_cons_self⟩
    obtain ⟨i, hi⟩ := (mem_identities_iff g a).1 ha
    have hb := (mem_targets h a b).2 hab
    rw [← ht.targets i a hi, mem_identitiesOf] at hb
    obtain ⟨j, hj, hjb⟩ := hb
    exact ⟨i, j, hi, hj, hjb⟩

include hg

/-- The old dependencies of a component, in a graph where the old components have their numbers. -/
theorem Tracks.identitiesOf_neighbors {g' : Graph} (hg' : g'.Indexed)
    (hid : ∀ i < g.size, g'.identity? i = g.identity? i) {i : Nat} {a : Identity}
    (hi : g'.identity? i = some a) : g'.identitiesOf (g.neighbors i) = Graph.targets h a := by
  by_cases hlt : i < g.size
  · have hsame : g'.identitiesOf (g.neighbors i) = g.identitiesOf (g.neighbors i) :=
      List.filterMap_congr fun j hj => hid j (hg.neighbors_lt i j hj)
    rw [hid i hlt] at hi
    rw [hsame, ht.targets i a hi]
  · -- a component without a number in the old graph is not mentioned, so it has no edges there
    have hnew : a ∉ mentioned h := by
      rw [← ht.identities, mem_identities_iff]
      rintro ⟨j, hj⟩
      have hjlt := lt_size_of_identity? hj
      rw [← hid j hjlt] at hj
      exact hlt (identity?_inj hg' hi hj ▸ hjlt)
    rw [neighbors_of_size_le (Nat.le_of_not_lt hlt), targets_of_notMem hnew]
    rfl

end Tracks

section Step
variable {g : Graph} {h : List Change} (hg : g.WellFormed) (ht : g.Tracks h)
include hg ht

theorem Tracks.ensure (a : Identity) : (g.ensure a).Tracks (h ++ [.ensure a]) where
  identities := by
    rw [mentioned, List.flatMap_append]
    exact identities_ensure_eq hg.indexed ht.identities a
  targets i x hi := by
    have hid : ∀ i < g.size, (g.ensure a).identity? i = g.identity? i :=
      fun i hlt => identity?_ensure_of_lt a hlt
    rw [neighbors_ensure, ht.identitiesOf_neighbors hg (hg.ensure a).indexed hid hi, Graph.targets,
      Graph.targets, added_concat_of_none h rfl]
  declared x := by
    rw [isDeclared_ensure hg.indexed, ht.declared]
    simp

theorem Tracks.declare (a : Identity) : (g.declare a).Tracks (h ++ [.declare a]) where
  identities := by
    rw [mentioned, List.flatMap_append, identities_declare]
    exact identities_ensure_eq hg.indexed ht.identities a
  targets i x hi := by
    have hid : ∀ i < g.size, (g.declare a).identity? i = g.identity? i :=
      (extends_declare g a).identity?_eq
    rw [neighbors_declare, ht.identitiesOf_neighbors hg (hg.declare a).indexed hid hi,
      Graph.targets, Graph.targets, added_concat_of_none h rfl]
  declared x := by
    rw [isDeclared_declare hg.indexed, ht.declared]
    simp

theorem Tracks.addEdge (a b : Identity) : (g.addEdge a b).Tracks (h ++ [.addEdge a b]) where
  identities := by
    rw [mentioned, List.flatMap_append, identities_addEdge, ensureEnds]
    have hends := identities_ensure_eq (hg.indexed.ensure a)
      (identities_ensure_eq hg.indexed ht.identities a) b
    rwa [List.append_assoc] at hends
  targets i x hi := by
    have hg' := hg.addEdge a b
    have hold := ht.identitiesOf_neighbors hg hg'.indexed
      (fun i hlt => identity?_addEdge_of_lt a b hlt) hi
    -- an edge that is there changes nothing, and a new one comes last at its component
    by_cases hab : (a, b) ∈ g.edges
    · have hmem := (ht.mem_edges_iff a b).1 hab
      rw [addEdge_of_dependsOn hg hab] at hold ⊢
      rw [hold, Graph.targets, Graph.targets, added_concat_of_mem h hmem]
    · have hmem : .addEdge a b ∉ h := fun hmem => hab ((ht.mem_edges_iff a b).2 hmem)
      obtain ⟨k, hk, hneighbors⟩ := neighbors_addEdge_of_new hg hab
      rw [hneighbors, targets_concat_of_new h hmem, hi]
      by_cases hx : x = a
      · rw [if_pos (congrArg some hx), if_pos hx, ← hold]
        rw [identitiesOf, List.filterMap_append, List.filterMap_cons_some hk]
        rfl
      · rw [if_neg fun hsome => hx (Option.some.inj hsome), if_neg hx, hold]
  declared x := by
    rw [isDeclared_addEdge hg.indexed, ht.declared]
    simp

theorem Tracks.change {c : Change} (hc : c ≠ .clear) : (g.change c).Tracks (h ++ [c]) :=
  match c with
  | .ensure a => ht.ensure hg a
  | .declare a => ht.declare hg a
  | .addEdge a b => ht.addEdge hg a b
  | .clear => absurd rfl hc

end Step

theorem after_concat (changes : List Change) (c : Change) :
    after (changes ++ [c]) = (after changes).change c := by
  simp [after]

theorem tracks_after (changes : List Change) : (after changes).Tracks (sinceClear changes) := by
  -- on the last change: a clear forgets what was before it, as `rtakeWhile` does
  induction changes using List.reverseRecOn with
  | nil => exact tracks_empty
  | append_singleton changes c ih =>
    rw [after_concat, sinceClear, List.rtakeWhile_concat]
    split
    · next hc => exact ih.change (wellFormed_after changes) (of_decide_eq_true hc)
    · next hc =>
      obtain rfl : c = .clear := by simpa using hc
      exact tracks_empty

/-! ## What a graph says -/

/-- Everything that a graph says, told from a history: its components and their numbers, their
dependencies, which of them are declared, its edges, and what adding another edge comes to. -/
structure Observes (g : Graph) (h : List Change) : Prop where
  identities : g.identities = mentioned h
  size : g.size = (mentioned h).length
  contains : ∀ a, g.contains a = true ↔ a ∈ mentioned h
  vertexId? : ∀ a, g.vertexId? a = (mentioned h).idxOf? a
  identity? : ∀ i, g.identity? i = (mentioned h)[i]?
  inverse : ∀ a i, g.vertexId? a = some i ↔ g.identity? i = some a
  idAfterEnsure : ∀ a, g.idAfterEnsure a = (mentioned (h ++ [.ensure a])).idxOf a
  dependenciesOf? : ∀ a, g.dependenciesOf? a = if a ∈ mentioned h then some (targets h a) else none
  neighbors : ∀ i a, (mentioned h)[i]? = some a →
    g.neighbors i = (targets h a).map fun b => (mentioned h).idxOf b
  neighbors_beyond : ∀ i, (mentioned h)[i]? = none → g.neighbors i = []
  neighbors_lt : ∀ i, ∀ j ∈ g.neighbors i, j < g.size
  isDeclared : ∀ a, g.isDeclared a = true ↔ .declare a ∈ h
  placeholders : g.placeholders = (mentioned h).filter fun a => .declare a ∉ h
  isNewEdge : ∀ a b, g.isNewEdge a b = true ↔ .addEdge a b ∉ h
  edges : g.edges = (mentioned h).flatMap fun a => (targets h a).map (a, ·)
  edges_perm : g.edges.Perm (added h)
  edgeCount : g.edgeCount = (added h).length
  edges_length : g.edges.length = (added h).length

theorem Tracks.edges_eq {g : Graph} {h : List Change} (ht : g.Tracks h) :
    g.edges = (mentioned h).flatMap fun a => (Graph.targets h a).map (a, ·) := by
  rw [← ht.identities, Graph.identities, List.flatMap_map, edges]
  refine List.flatMap_congr fun v hv => ?_
  obtain ⟨i, hi⟩ := List.mem_iff_getElem?.1 hv
  rw [← ht.targets i v.identity (identity?_of_vertex hi), neighbors_of_getElem? hi]

theorem nodup_edges (h : List Change) :
    ((mentioned h).flatMap fun a => (targets h a).map (a, ·)).Nodup := by
  simp only [targets_pairs]
  rw [List.nodup_flatMap]
  refine ⟨fun a _ => (nodup_eraseDups _).filter _, ?_⟩
  refine (nodup_eraseDups (h.flatMap Change.mentions)).imp fun hab => ?_
  intro p hp hp'
  have hpa := of_decide_eq_true (List.mem_filter.1 hp).2
  have hpb := of_decide_eq_true (List.mem_filter.1 hp').2
  exact hab (hpa.symm.trans hpb)

section Observes
variable {g : Graph} {h : List Change} (hg : g.WellFormed) (ht : g.Tracks h)
include ht

theorem Tracks.edges_perm : g.edges.Perm (added h) := by
  have hnodup : g.edges.Nodup := by
    rw [ht.edges_eq]
    exact nodup_edges h
  refine (List.perm_ext_iff_of_nodup hnodup (nodup_eraseDups _)).2 ?_
  rintro ⟨a, b⟩
  exact (ht.mem_edges_iff a b).trans (mem_added h a b).symm

include hg

theorem Tracks.dependenciesOf? (a : Identity) :
    g.dependenciesOf? a = if a ∈ mentioned h then some (Graph.targets h a) else none := by
  rw [← ht.identities]
  split
  · next ha =>
    obtain ⟨i, hi⟩ := (mem_identities_iff g a).1 ha
    rw [dependenciesOf?_of_identity? hg.indexed hi, ht.targets i a hi]
  · next ha => exact dependenciesOf?_of_notMem hg.indexed ha

theorem Tracks.neighbors {i : Nat} {a : Identity} (hi : g.identity? i = some a) :
    g.neighbors i = (Graph.targets h a).map fun b => (mentioned h).idxOf b := by
  rw [← ht.targets i a hi, ← ht.identities]
  have hlt := hg.neighbors_lt i
  generalize g.neighbors i = ids at hlt ⊢
  induction ids with
  | nil => rfl
  | cons j js ih =>
    obtain ⟨hj, hjs⟩ := List.forall_mem_cons.1 hlt
    obtain ⟨b, hb⟩ := exists_identity? hj
    rw [identitiesOf, List.filterMap_cons_some hb, List.map_cons, idxOf_of_identity? hg.indexed hb]
    exact congrArg (List.cons j) (ih hjs)

theorem Tracks.isNewEdge (a b : Identity) :
    g.isNewEdge a b = true ↔ .addEdge a b ∉ h := by
  rw [isNewEdge_iff hg, ht.mem_edges_iff]

theorem Tracks.placeholders :
    g.placeholders = (mentioned h).filter fun a => .declare a ∉ h := by
  rw [placeholders_eq hg.indexed, ht.identities]
  refine List.filter_congr fun a _ => ?_
  rw [Bool.eq_iff_iff, Bool.not_eq_true', ← Bool.not_eq_true, ht.declared, decide_eq_true_eq]

theorem Tracks.idAfterEnsure (a : Identity) :
    g.idAfterEnsure a = (mentioned (h ++ [.ensure a])).idxOf a := by
  have hafter : (g.ensure a).identities = mentioned (h ++ [.ensure a]) :=
    (ht.ensure hg a).identities
  rw [← hafter, identities_ensure hg.indexed, Graph.idAfterEnsure]
  split
  · next ha =>
    obtain ⟨i, hi⟩ := exists_vertexId? hg.indexed ha
    rw [hi, Option.getD_some, idxOf_of_identity? hg.indexed ((hg.indexed a i).1 hi)]
  · next ha =>
    rw [vertexId?_of_notMem hg.indexed ha, Option.getD_none, List.idxOf_append_of_notMem ha,
      size_eq_length]
    simp

theorem Tracks.observes : g.Observes h where
  identities := ht.identities
  size := by rw [size_eq_length, ht.identities]
  contains a := by rw [contains_iff hg.indexed, ht.identities]
  vertexId? a := by rw [vertexId?_eq_idxOf? hg.indexed, ht.identities]
  identity? i := by rw [identity?_eq_getElem?, ht.identities]
  inverse := hg.indexed
  idAfterEnsure := ht.idAfterEnsure hg
  dependenciesOf? := ht.dependenciesOf? hg
  neighbors i a hi := by
    rw [← ht.identities, ← identity?_eq_getElem?] at hi
    exact ht.neighbors hg hi
  neighbors_beyond i hi := by
    rw [← ht.identities, List.getElem?_eq_none_iff, ← size_eq_length] at hi
    exact neighbors_of_size_le hi
  neighbors_lt := hg.neighbors_lt
  isDeclared := ht.declared
  placeholders := ht.placeholders hg
  isNewEdge := ht.isNewEdge hg
  edges := ht.edges_eq
  edges_perm := ht.edges_perm
  edgeCount := by rw [edgeCount_eq hg, ht.edges_perm.length_eq]
  edges_length := ht.edges_perm.length_eq

end Observes

/-- After any changes of the graph without components, a graph says what the changes since the last
clear say. -/
theorem observes_after (changes : List Change) : (after changes).Observes (sinceClear changes) :=
  (tracks_after changes).observes (wellFormed_after changes)

end ComponentWiring.Graph
