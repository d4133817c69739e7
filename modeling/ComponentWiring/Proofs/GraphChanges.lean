import ComponentWiring.Graph.Basic
import Mathlib.Algebra.GroupWithZero.Nat
import Mathlib.Data.List.Nodup

/-! # Graphs reached by changes

What the graph operations do to the vertices, the index and the counter of a graph, and from it what
they do to its edges.

* `Graph.Change`, `Graph.change`: the ways to change a graph, and what each leads to.
* `Graph.after`: the graph after changes of the graph without components.
* `Graph.Indexed`: the index has every component at its number.
* `Graph.WellFormed`: the vertices, the index and the counter are in step, and every dependency is
  one of the graph.
* `Graph.mem_edges_addEdge`: an edge is added between two components, and no other.
-/

namespace ComponentWiring.Graph
set_option autoImplicit false

/-! ## Changes -/

/-- A way to change a graph. -/
inductive Change where
  | ensure (a : Identity)
  | declare (a : Identity)
  | addEdge (a b : Identity)
  | clear
  deriving DecidableEq

def change (g : Graph) : Change → Graph
  | .ensure a => g.ensure a
  | .declare a => g.declare a
  | .addEdge a b => g.addEdge a b
  | .clear => g.clear

/-- The graph after changes, in order, of the graph without components. -/
def after (changes : List Change) : Graph := changes.foldl change empty

/-! ## Components and their numbers -/

theorem identity?_eq_getElem? (g : Graph) (i : Nat) : g.identity? i = g.identities[i]? := by
  simp [identity?, identities]

theorem size_eq_length (g : Graph) : g.size = g.identities.length := by
  simp [size, identities]

theorem identity?_isSome_iff (g : Graph) (i : Nat) : (g.identity? i).isSome ↔ i < g.size := by
  simp [identity?, size]

theorem lt_size_of_identity? {g : Graph} {i : Nat} {a : Identity} (h : g.identity? i = some a) :
    i < g.size := by
  rw [← identity?_isSome_iff, h]
  rfl

theorem exists_identity? {g : Graph} {i : Nat} (h : i < g.size) : ∃ a, g.identity? i = some a :=
  Option.isSome_iff_exists.1 ((identity?_isSome_iff g i).2 h)

theorem mem_identities_iff (g : Graph) (a : Identity) :
    a ∈ g.identities ↔ ∃ i, g.identity? i = some a := by
  simp only [identity?_eq_getElem?, List.mem_iff_getElem?]

/-- The index has every component at its number, and no other entry. -/
def Indexed (g : Graph) : Prop := ∀ a i, g.vertexId? a = some i ↔ g.identity? i = some a

section Indexed
variable {g : Graph} (h : g.Indexed)
include h

theorem identity?_inj {i j : Nat} {a : Identity} (hi : g.identity? i = some a)
    (hj : g.identity? j = some a) : i = j :=
  Option.some.inj (((h a i).2 hi).symm.trans ((h a j).2 hj))

theorem Indexed.nodup : g.identities.Nodup := by
  rw [List.nodup_iff_getElem?_ne_getElem?]
  intro i j hij hj heq
  rw [← size_eq_length] at hj
  obtain ⟨a, ha⟩ := exists_identity? hj
  rw [← identity?_eq_getElem?, ← identity?_eq_getElem?, ha] at heq
  exact Nat.ne_of_lt hij (identity?_inj h heq ha)

theorem contains_iff (a : Identity) : g.contains a = true ↔ a ∈ g.identities := by
  rw [contains, Option.isSome_iff_exists, mem_identities_iff]
  exact exists_congr (h a)

theorem exists_vertexId? {a : Identity} (ha : a ∈ g.identities) : ∃ i, g.vertexId? a = some i :=
  Option.isSome_iff_exists.1 ((contains_iff h a).2 ha)

/-- A graph with the same components and the same index. -/
theorem Indexed.of_eq {g' : Graph} (hindex : g'.index = g.index)
    (hidentities : g'.identities = g.identities) : g'.Indexed := by
  intro a i
  rw [identity?_eq_getElem?, hidentities, ← identity?_eq_getElem?, ← h a i, vertexId?, vertexId?,
    hindex]

end Indexed

/-! ## Dependencies by number -/

theorem neighbors_of_getElem? {g : Graph} {i : Nat} {v : Vertex} (h : g.vertices[i]? = some v) :
    g.neighbors i = v.edges := by
  simp [neighbors, h]

theorem neighbors_of_size_le {g : Graph} {i : Nat} (h : g.size ≤ i) : g.neighbors i = [] := by
  have hnone : g.vertices[i]? = none := List.getElem?_eq_none h
  simp [neighbors, hnone]

theorem lt_size_of_mem_neighbors {g : Graph} {i j : Nat} (h : j ∈ g.neighbors i) : i < g.size := by
  by_contra hi
  rw [neighbors_of_size_le (Nat.le_of_not_lt hi)] at h
  exact List.not_mem_nil h

theorem mem_identitiesOf (g : Graph) (ids : List Nat) (a : Identity) :
    a ∈ g.identitiesOf ids ↔ ∃ i ∈ ids, g.identity? i = some a := by
  simp [identitiesOf]

theorem mem_edges_iff (g : Graph) (a b : Identity) :
    (a, b) ∈ g.edges ↔
      ∃ i j, g.identity? i = some a ∧ j ∈ g.neighbors i ∧ g.identity? j = some b := by
  simp only [edges, List.mem_flatMap, List.mem_map, mem_identitiesOf, Prod.mk.injEq]
  constructor
  · rintro ⟨v, hv, y, ⟨j, hj, hjb⟩, rfl, rfl⟩
    obtain ⟨i, hi⟩ := List.mem_iff_getElem?.1 hv
    refine ⟨i, j, by simp [identity?, hi], ?_, hjb⟩
    rwa [neighbors_of_getElem? hi]
  · rintro ⟨i, j, hia, hj, hjb⟩
    obtain ⟨v, hv⟩ : ∃ v, g.vertices[i]? = some v := by
      cases hv : g.vertices[i]? with
      | none => simp [identity?, hv] at hia
      | some v => exact ⟨v, rfl⟩
    rw [neighbors_of_getElem? hv] at hj
    refine ⟨v, List.mem_iff_getElem?.2 ⟨i, hv⟩, b, ⟨j, hj, hjb⟩, ?_, rfl⟩
    simpa [identity?, hv] using hia

/-! ## Mentioning a component -/

theorem size_le_ensure (g : Graph) (a : Identity) : g.size ≤ (g.ensure a).size := by
  unfold ensure
  split
  · exact Nat.le_refl _
  · simp [size]

theorem identity?_ensure_of_lt {g : Graph} (a : Identity) {i : Nat} (hi : i < g.size) :
    (g.ensure a).identity? i = g.identity? i := by
  unfold ensure
  split
  · rfl
  · rw [identity?, identity?, List.getElem?_append_left hi]

@[simp] theorem neighbors_ensure (g : Graph) (a : Identity) (i : Nat) :
    (g.ensure a).neighbors i = g.neighbors i := by
  unfold ensure
  split
  · rfl
  · rcases Nat.lt_trichotomy i g.vertices.length with hi | rfl | hi
    · simp [neighbors, List.getElem?_append_left hi]
    · simp [neighbors]
    · have hnone : g.vertices[i]? = none := List.getElem?_eq_none (Nat.le_of_lt hi)
      have hnone' : (g.vertices ++ [⟨a, [], false⟩])[i]? = none :=
        List.getElem?_eq_none (by rw [List.length_append, List.length_singleton]; exact hi)
      simp [neighbors, hnone, hnone']

section Ensure
variable {g : Graph} (h : g.Indexed) (a : Identity)
include h

theorem identities_ensure :
    (g.ensure a).identities = if a ∈ g.identities then g.identities else g.identities ++ [a] := by
  unfold ensure
  simp only [contains_iff h]
  split
  · rfl
  · simp [identities]

theorem mem_identities_ensure (x : Identity) :
    x ∈ (g.ensure a).identities ↔ x ∈ g.identities ∨ x = a := by
  rw [identities_ensure h]
  split
  · next ha =>
    constructor
    · exact Or.inl
    · rintro (hx | rfl)
      · exact hx
      · exact ha
  · simp

/-- A component that is new gets the next number, and the index has it there. -/
theorem Indexed.ensure : (g.ensure a).Indexed := by
  by_cases ha : a ∈ g.identities
  · rw [Graph.ensure, if_pos ((contains_iff h a).2 ha)]
    exact h
  have hidentities : (g.ensure a).identities = g.identities ++ [a] := by
    rw [identities_ensure h, if_neg ha]
  intro x i
  have hlookup : (g.ensure a).vertexId? x = if x = a then some g.size else g.vertexId? x := by
    rw [Graph.ensure, if_neg (fun hold => ha ((contains_iff h a).1 hold)), vertexId?,
      List.lookup_cons]
    by_cases hx : x = a
    · simp [hx]
    · rw [beq_false_of_ne hx, if_neg hx, vertexId?]
  rw [hlookup, identity?_eq_getElem?, hidentities, size_eq_length]
  rcases Nat.lt_trichotomy i g.identities.length with hi | rfl | hi
  · rw [List.getElem?_append_left hi, ← identity?_eq_getElem?, ← h x i]
    split
    · next hx =>
      subst hx
      refine iff_of_false (fun heq => Nat.ne_of_gt hi (Option.some.inj heq)) fun hold => ?_
      exact ha ((contains_iff h x).1 (by rw [contains, hold]; rfl))
    · rfl
  · rw [List.getElem?_append_right (Nat.le_refl _), Nat.sub_self]
    split
    · next hx => simp [hx]
    · next hx =>
      refine iff_of_false (fun hold => ?_) (by simpa using Ne.symm hx)
      have hlt := lt_size_of_identity? ((h x _).1 hold)
      exact Nat.ne_of_lt hlt (size_eq_length g).symm
  · rw [List.getElem?_eq_none (by rw [List.length_append, List.length_singleton]; exact hi)]
    split
    · exact iff_of_false (fun heq => Nat.ne_of_lt hi (Option.some.inj heq)) (by simp)
    · refine iff_of_false (fun hold => ?_) (by simp)
      have hlt := lt_size_of_identity? ((h x _).1 hold)
      rw [size_eq_length] at hlt
      exact Nat.lt_asymm hi hlt

/-- The number that a component has once it is mentioned. -/
theorem identity?_idAfterEnsure : (g.ensure a).identity? (g.idAfterEnsure a) = some a := by
  by_cases ha : a ∈ g.identities
  · obtain ⟨i, hi⟩ := exists_vertexId? h ha
    have hia := (h a i).1 hi
    rw [idAfterEnsure, hi, Option.getD_some, identity?_ensure_of_lt a (lt_size_of_identity? hia),
      hia]
  · have hnone : g.vertexId? a = none := by
      rw [Option.eq_none_iff_forall_ne_some]
      exact fun i hi => ha ((mem_identities_iff g a).2 ⟨i, (h a i).1 hi⟩)
    rw [idAfterEnsure, hnone, Option.getD_none, identity?_eq_getElem?, identities_ensure h,
      if_neg ha, size_eq_length]
    simp

end Ensure

section EnsureEnds
variable {g : Graph} (h : g.Indexed) (a b : Identity)
include h

theorem Indexed.ensureEnds : (g.ensureEnds a b).Indexed := (h.ensure a).ensure b

theorem identity?_ensureEnds_source :
    (g.ensureEnds a b).identity? (g.idAfterEnsure a) = some a := by
  have ha := identity?_idAfterEnsure h a
  rw [Graph.ensureEnds, identity?_ensure_of_lt b (lt_size_of_identity? ha), ha]

theorem identity?_ensureEnds_target :
    (g.ensureEnds a b).identity? ((g.ensure a).idAfterEnsure b) = some b :=
  identity?_idAfterEnsure (h.ensure a) b

end EnsureEnds

/-! ## Changing one vertex -/

section Update
variable (g : Graph) (i : Nat) {f : Vertex → Vertex}

theorem identities_update (hf : ∀ v, (f v).identity = v.identity) :
    (g.update i f).identities = g.identities := by
  apply List.ext_getElem?
  intro j
  rw [← identity?_eq_getElem?, ← identity?_eq_getElem?, identity?, identity?, update,
    List.getElem?_modify]
  cases g.vertices[j]? with
  | none => rfl
  | some v =>
    by_cases hij : i = j
    · simp [hij, hf]
    · simp [hij]

theorem neighbors_update_self (es : List Nat) (hi : i < g.size)
    (hf : ∀ v, (f v).edges = v.edges ++ es) :
    (g.update i f).neighbors i = g.neighbors i ++ es := by
  have hv : g.vertices[i]? = some g.vertices[i] := List.getElem?_eq_getElem hi
  simp [neighbors, update, hv, hf]

theorem neighbors_update_ne {j : Nat} (hij : j ≠ i) :
    (g.update i f).neighbors j = g.neighbors j := by
  cases hv : g.vertices[j]? with
  | none => simp [neighbors, update, List.getElem?_modify, hv]
  | some v => simp [neighbors, update, hv, Ne.symm hij]

end Update

/-- Changing one item of a list changes a sum over the list by what it changes of the item. -/
theorem sum_map_modify {α : Type} {xs : List α} {i : Nat} (hi : i < xs.length) {f : α → α}
    {weight : α → Nat} (n : Nat) (hf : ∀ x, weight (f x) = weight x + n) :
    ((xs.modify i f).map weight).sum = (xs.map weight).sum + n := by
  induction xs generalizing i with
  | nil => cases hi
  | cons x xs ih =>
    cases i with
    | zero =>
      rw [List.modify_zero_cons, List.map_cons, List.map_cons, List.sum_cons, List.sum_cons, hf]
      omega
    | succ i =>
      rw [List.modify_succ_cons, List.map_cons, List.map_cons, List.sum_cons, List.sum_cons,
        ih (Nat.lt_of_succ_lt_succ hi)]
      omega

theorem identities_declare (g : Graph) (a : Identity) :
    (g.declare a).identities = (g.ensure a).identities :=
  identities_update _ _ fun _ => rfl

@[simp] theorem neighbors_declare (g : Graph) (a : Identity) (i : Nat) :
    (g.declare a).neighbors i = g.neighbors i := by
  rw [← neighbors_ensure g a i, declare]
  by_cases hi : i = g.idAfterEnsure a
  · by_cases hlt : i < (g.ensure a).size
    · rw [← hi, neighbors_update_self (g.ensure a) i [] hlt (by simp), List.append_nil]
    · have hsize : ((g.ensure a).update (g.idAfterEnsure a)
          fun v => { v with declared := true }).size = (g.ensure a).size := by
        simp [size, update]
      rw [neighbors_of_size_le (Nat.le_of_not_lt hlt),
        neighbors_of_size_le (hsize ▸ Nat.le_of_not_lt hlt)]
  · exact neighbors_update_ne _ _ hi

/-! ## Adding an edge -/

theorem identities_addEdge (g : Graph) (a b : Identity) :
    (g.addEdge a b).identities = (g.ensureEnds a b).identities := by
  unfold addEdge
  dsimp only
  split
  · exact identities_update _ _ fun _ => rfl
  · rfl

theorem index_addEdge (g : Graph) (a b : Identity) :
    (g.addEdge a b).index = (g.ensureEnds a b).index := by
  unfold addEdge
  dsimp only
  split <;> rfl

theorem identity?_addEdge (g : Graph) (a b : Identity) (i : Nat) :
    (g.addEdge a b).identity? i = (g.ensureEnds a b).identity? i := by
  rw [identity?_eq_getElem?, identity?_eq_getElem?, identities_addEdge]

theorem identity?_addEdge_of_lt {g : Graph} (a b : Identity) {i : Nat} (hi : i < g.size) :
    (g.addEdge a b).identity? i = g.identity? i := by
  rw [identity?_addEdge, ensureEnds,
    identity?_ensure_of_lt b (Nat.lt_of_lt_of_le hi (size_le_ensure g a)),
    identity?_ensure_of_lt a hi]

theorem neighbors_addEdge_of_old {g : Graph} {a b : Identity} (hold : g.isNewEdge a b = false)
    (i : Nat) : (g.addEdge a b).neighbors i = g.neighbors i := by
  rw [addEdge]
  dsimp only
  rw [if_neg (by simp [hold]), ensureEnds, neighbors_ensure, neighbors_ensure]

section AddEdge
variable {g : Graph} (h : g.Indexed) (a b : Identity)
include h

theorem mem_identities_addEdge (x : Identity) :
    x ∈ (g.addEdge a b).identities ↔ x ∈ g.identities ∨ x = a ∨ x = b := by
  rw [identities_addEdge, ensureEnds, mem_identities_ensure (h.ensure a), mem_identities_ensure h,
    or_assoc]

theorem Indexed.addEdge : (g.addEdge a b).Indexed :=
  (h.ensureEnds a b).of_eq (index_addEdge g a b) (identities_addEdge g a b)

/-- An edge is not new if it is there once both of its ends are mentioned. -/
theorem isNewEdge_eq_false_iff :
    g.isNewEdge a b = false ↔
      ∃ i j, (g.ensureEnds a b).identity? i = some a ∧ j ∈ g.neighbors i ∧
        (g.ensureEnds a b).identity? j = some b := by
  have hold : ∀ i, (g.ensureEnds a b).neighbors i = g.neighbors i := by
    intro i
    rw [ensureEnds, neighbors_ensure, neighbors_ensure]
  rw [isNewEdge, Bool.not_eq_false', List.contains_iff_mem, hold]
  constructor
  · intro hmem
    exact ⟨_, _, identity?_ensureEnds_source h a b, hmem, identity?_ensureEnds_target h a b⟩
  · rintro ⟨i, j, hi, hmem, hj⟩
    rw [identity?_inj (h.ensureEnds a b) (identity?_ensureEnds_source h a b) hi,
      identity?_inj (h.ensureEnds a b) (identity?_ensureEnds_target h a b) hj]
    exact hmem

/-- A new edge is the last one of its component, and no other component gets one. -/
theorem neighbors_addEdge_of_isNewEdge (hnew : g.isNewEdge a b = true) (i : Nat) :
    (g.addEdge a b).neighbors i =
      if (g.ensureEnds a b).identity? i = some a then
        g.neighbors i ++ [(g.ensure a).idAfterEnsure b]
      else g.neighbors i := by
  have hsource := identity?_ensureEnds_source h a b
  have hold : (g.ensureEnds a b).neighbors i = g.neighbors i := by
    rw [ensureEnds, neighbors_ensure, neighbors_ensure]
  rw [← hold, Graph.addEdge]
  dsimp only
  rw [if_pos hnew]
  split
  · next hi =>
    obtain rfl := identity?_inj (h.ensureEnds a b) hi hsource
    exact neighbors_update_self _ _ [_] (lt_size_of_identity? hsource) fun _ => rfl
  · next hi =>
    exact neighbors_update_ne _ _ fun heq => hi (heq ▸ hsource)

/-- An added edge is the only new dependency by number. -/
theorem mem_neighbors_addEdge (i j : Nat) :
    j ∈ (g.addEdge a b).neighbors i ↔ j ∈ g.neighbors i ∨
      ((g.addEdge a b).identity? i = some a ∧ (g.addEdge a b).identity? j = some b) := by
  have hends := h.ensureEnds a b
  have htarget := identity?_ensureEnds_target h a b
  rw [identity?_addEdge, identity?_addEdge]
  cases hnew : g.isNewEdge a b with
  | false =>
    obtain ⟨i', j', hi', hmem, hj'⟩ := (isNewEdge_eq_false_iff h a b).1 hnew
    rw [neighbors_addEdge_of_old hnew]
    constructor
    · exact Or.inl
    · rintro (hj | ⟨hi, hj⟩)
      · exact hj
      · rw [identity?_inj hends hi hi', identity?_inj hends hj hj']
        exact hmem
  | true =>
    rw [neighbors_addEdge_of_isNewEdge h a b hnew]
    split
    · next hi =>
      rw [List.mem_append, List.mem_singleton]
      constructor
      · rintro (hj | rfl)
        · exact Or.inl hj
        · exact Or.inr ⟨hi, htarget⟩
      · rintro (hj | ⟨-, hj⟩)
        · exact Or.inl hj
        · exact Or.inr (identity?_inj hends hj htarget)
    · next hi =>
      constructor
      · exact Or.inl
      · rintro (hj | ⟨hia, -⟩)
        · exact hj
        · exact absurd hia hi

end AddEdge

/-! ## Graphs whose parts are in step -/

/-- The index has every component at its number, every dependency is the number of a component, and
the counter is the number of all dependencies. -/
structure WellFormed (g : Graph) : Prop where
  indexed : g.Indexed
  neighbors_lt : ∀ i, ∀ j ∈ g.neighbors i, j < g.size
  counted : g.edgeCount = (g.vertices.map (·.edges.length)).sum

theorem WellFormed.nodup {g : Graph} (h : g.WellFormed) : g.identities.Nodup := h.indexed.nodup

theorem wellFormed_empty : empty.WellFormed where
  indexed := by simp [Indexed, vertexId?, identity?, empty]
  neighbors_lt := by simp [neighbors, empty]
  counted := rfl

theorem edgeCount_ensure (g : Graph) (a : Identity) : (g.ensure a).edgeCount = g.edgeCount := by
  unfold ensure
  split <;> rfl

theorem sum_edges_ensure (g : Graph) (a : Identity) :
    ((g.ensure a).vertices.map (·.edges.length)).sum = (g.vertices.map (·.edges.length)).sum := by
  unfold ensure
  split
  · rfl
  · simp

section WellFormed
variable {g : Graph} (h : g.WellFormed)
include h

theorem WellFormed.ensure (a : Identity) : (g.ensure a).WellFormed where
  indexed := h.indexed.ensure a
  neighbors_lt := by
    intro i j hj
    rw [neighbors_ensure] at hj
    exact Nat.lt_of_lt_of_le (h.neighbors_lt i j hj) (size_le_ensure g a)
  counted := by rw [edgeCount_ensure, sum_edges_ensure, h.counted]

theorem WellFormed.declare (a : Identity) : (g.declare a).WellFormed where
  indexed := (h.indexed.ensure a).of_eq rfl (identities_declare g a)
  neighbors_lt := by
    intro i j hj
    rw [neighbors_declare] at hj
    rw [size_eq_length, identities_declare, ← size_eq_length]
    exact Nat.lt_of_lt_of_le (h.neighbors_lt i j hj) (size_le_ensure g a)
  counted := by
    have hlt := lt_size_of_identity? (identity?_idAfterEnsure h.indexed a)
    have hsum : ((g.declare a).vertices.map (·.edges.length)).sum = _ :=
      sum_map_modify hlt 0 fun _ => rfl
    rw [hsum]
    exact (h.ensure a).counted

theorem WellFormed.ensureEnds (a b : Identity) : (g.ensureEnds a b).WellFormed :=
  (h.ensure a).ensure b

theorem WellFormed.addEdge (a b : Identity) : (g.addEdge a b).WellFormed where
  indexed := h.indexed.addEdge a b
  neighbors_lt := by
    intro i j hj
    rcases (mem_neighbors_addEdge h.indexed a b i j).1 hj with hold | ⟨-, hnew⟩
    · rw [size_eq_length, identities_addEdge, ← size_eq_length]
      have ha := size_le_ensure g a
      have hb := size_le_ensure (g.ensure a) b
      exact Nat.lt_of_lt_of_le (h.neighbors_lt i j hold) (Nat.le_trans ha hb)
    · exact lt_size_of_identity? hnew
  counted := by
    have hcounted := (h.ensureEnds a b).counted
    have hlt := lt_size_of_identity? (identity?_ensureEnds_source h.indexed a b)
    rw [Graph.addEdge]
    dsimp only
    split
    · -- the counter and the edges of the one vertex grow together
      have hsum : (((g.ensureEnds a b).update (g.idAfterEnsure a) fun v =>
          { v with edges := v.edges ++ [(g.ensure a).idAfterEnsure b] }).vertices.map
            (·.edges.length)).sum = _ := sum_map_modify hlt 1 fun v => List.length_append
      rw [hsum, hcounted]
    · exact hcounted

theorem WellFormed.change (c : Change) : (g.change c).WellFormed :=
  match c with
  | .ensure a => h.ensure a
  | .declare a => h.declare a
  | .addEdge a b => h.addEdge a b
  | .clear => wellFormed_empty

end WellFormed

/-- A property of the graph without components that every change keeps is one of every graph. -/
theorem after_induction {P : Graph → Prop} (hempty : P empty)
    (hchange : ∀ g c, P g → P (g.change c)) (changes : List Change) : P (after changes) := by
  have hfold : ∀ g, P g → P (changes.foldl change g) := by
    induction changes with
    | nil => exact fun _ h => h
    | cons c changes ih => exact fun g h => ih _ (hchange g c h)
  exact hfold empty hempty

theorem wellFormed_after (changes : List Change) : (after changes).WellFormed :=
  after_induction wellFormed_empty (fun _ c h => h.change c) changes

/-! ## Edges after an operation -/

section Edges
variable {g : Graph}

theorem exists_edge_iff (h : g.WellFormed) {g' : Graph}
    (hid : ∀ i < g.size, g'.identity? i = g.identity? i) (x y : Identity) :
    (∃ i j, g'.identity? i = some x ∧ j ∈ g.neighbors i ∧ g'.identity? j = some y) ↔
      (x, y) ∈ g.edges := by
  rw [mem_edges_iff]
  constructor
  · rintro ⟨i, j, hi, hj, hjy⟩
    rw [hid i (lt_size_of_mem_neighbors hj)] at hi
    rw [hid j (h.neighbors_lt i j hj)] at hjy
    exact ⟨i, j, hi, hj, hjy⟩
  · rintro ⟨i, j, hi, hj, hjy⟩
    rw [← hid i (lt_size_of_mem_neighbors hj)] at hi
    rw [← hid j (h.neighbors_lt i j hj)] at hjy
    exact ⟨i, j, hi, hj, hjy⟩

theorem mem_edges_declare (h : g.WellFormed) (a x y : Identity) :
    (x, y) ∈ (g.declare a).edges ↔ (x, y) ∈ g.edges := by
  have hid : ∀ i < g.size, (g.declare a).identity? i = g.identity? i := by
    intro i hi
    rw [identity?_eq_getElem?, identities_declare, ← identity?_eq_getElem?,
      identity?_ensure_of_lt a hi]
  rw [← exists_edge_iff h hid, mem_edges_iff]
  simp only [neighbors_declare]

theorem mem_edges_addEdge (h : g.WellFormed) (a b x y : Identity) :
    (x, y) ∈ (g.addEdge a b).edges ↔ (x, y) ∈ g.edges ∨ (x = a ∧ y = b) := by
  rw [← exists_edge_iff h (fun _ hi => identity?_addEdge_of_lt a b hi), mem_edges_iff]
  simp only [mem_neighbors_addEdge h.indexed]
  constructor
  · rintro ⟨i, j, hi, hj | ⟨hia, hjb⟩, hjy⟩
    · exact Or.inl ⟨i, j, hi, hj, hjy⟩
    · rw [hi] at hia
      rw [hjy] at hjb
      exact Or.inr ⟨Option.some.inj hia, Option.some.inj hjb⟩
  · rintro (⟨i, j, hi, hj, hjy⟩ | ⟨rfl, rfl⟩)
    · exact ⟨i, j, hi, Or.inl hj, hjy⟩
    · have hx := (mem_identities_addEdge h.indexed x y x).2 (Or.inr (Or.inl rfl))
      have hy := (mem_identities_addEdge h.indexed x y y).2 (Or.inr (Or.inr rfl))
      obtain ⟨i, hi⟩ := (mem_identities_iff _ x).1 hx
      obtain ⟨j, hj⟩ := (mem_identities_iff _ y).1 hy
      exact ⟨i, j, hi, Or.inr ⟨hi, hj⟩, hj⟩

end Edges

end ComponentWiring.Graph
