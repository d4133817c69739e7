import ComponentWiring.Proofs.OrderOrCycle
import ComponentWiring.Proofs.RecursiveSearch

/-! # Graphs that grow

A graph grows past another one where the components of the smaller one keep their numbers and their
dependencies. The search goes through the smaller graph first, in the same way as on it alone.

* `Graph.Change.Spares`: a change that gives no component of a graph a new dependency.
* `Graph.Extends`: a graph with all of another one, and no new dependencies of its components.
* `Graph.follow_extends`, `Graph.tryRoots_extends`: on the components of the smaller graph the
  recursion is the same.
* `Graph.outcome_of_extends`: the outcome for the larger graph.
* `Graph.outcome_after_append`: the same for a graph that further changes lead to.
-/

namespace ComponentWiring.Graph
set_option autoImplicit false

/-! ## Growth -/

/-- A change that neither drops anything nor gives a component of a graph a new dependency. -/
def Change.Spares (g : Graph) : Change → Prop
  | .ensure _ => True
  | .declare _ => True
  | .addEdge a b => a ∈ g.identities → g.DependsOn a b
  | .clear => False

/-- The components of the smaller graph have the same numbers and the same dependencies in the
larger one. -/
structure Extends (large small : Graph) : Prop where
  size_le : small.size ≤ large.size
  identity?_eq : ∀ i < small.size, large.identity? i = small.identity? i
  neighbors_eq : ∀ i < small.size, large.neighbors i = small.neighbors i

theorem Extends.refl (g : Graph) : g.Extends g :=
  ⟨Nat.le_refl _, fun _ _ => rfl, fun _ _ => rfl⟩

theorem Extends.trans {g h k : Graph} (hkh : k.Extends h) (hhg : h.Extends g) : k.Extends g where
  size_le := Nat.le_trans hhg.size_le hkh.size_le
  identity?_eq i hi := by
    have hi' : i < h.size := Nat.lt_of_lt_of_le hi hhg.size_le
    rw [hkh.identity?_eq i hi', hhg.identity?_eq i hi]
  neighbors_eq i hi := by
    have hi' : i < h.size := Nat.lt_of_lt_of_le hi hhg.size_le
    rw [hkh.neighbors_eq i hi', hhg.neighbors_eq i hi]

section Ensure
variable (g : Graph) (a b : Identity)

theorem extends_ensure : (g.ensure a).Extends g where
  size_le := size_le_ensure g a
  identity?_eq _ hi := identity?_ensure_of_lt a hi
  neighbors_eq i _ := neighbors_ensure g a i

theorem extends_declare : (g.declare a).Extends g where
  size_le := by
    rw [size_eq_length (g.declare a), identities_declare, ← size_eq_length]
    exact size_le_ensure g a
  identity?_eq i hi := by
    rw [identity?_eq_getElem?, identities_declare, ← identity?_eq_getElem?]
    exact identity?_ensure_of_lt a hi
  neighbors_eq i _ := neighbors_declare g a i

theorem extends_ensureEnds : (g.ensureEnds a b).Extends g :=
  (extends_ensure (g.ensure a) b).trans (extends_ensure g a)

end Ensure

theorem ensure_of_mem {g : Graph} (hg : g.Indexed) {a : Identity} (ha : a ∈ g.identities) :
    g.ensure a = g :=
  if_pos ((contains_iff hg a).2 ha)

/-- An edge that is there is not added again. -/
theorem addEdge_of_dependsOn {g : Graph} (hg : g.WellFormed) {a b : Identity}
    (hab : g.DependsOn a b) : g.addEdge a b = g := by
  obtain ⟨i, j, hi, hmem, hj⟩ := (mem_edges_iff g a b).1 hab
  have ha : a ∈ g.identities := (mem_identities_iff g a).2 ⟨i, hi⟩
  have hb : b ∈ g.identities := (mem_identities_iff g b).2 ⟨j, hj⟩
  have hsame : g.ensureEnds a b = g := by
    rw [ensureEnds, ensure_of_mem hg.indexed ha, ensure_of_mem hg.indexed hb]
  have hold : g.isNewEdge a b = false := by
    rw [isNewEdge_eq_false_iff hg.indexed, hsame]
    exact ⟨i, j, hi, hmem, hj⟩
  rw [addEdge, if_neg (by simp [hold]), hsame]

theorem neighbors_addEdge_of_ne {g : Graph} (hg : g.Indexed) {a b : Identity} {i : Nat}
    (hi : i < g.size) (hne : g.identity? i ≠ some a) :
    (g.addEdge a b).neighbors i = g.neighbors i := by
  cases hnew : g.isNewEdge a b with
  | false => exact neighbors_addEdge_of_old hnew i
  | true =>
    rw [neighbors_addEdge_of_isNewEdge hg a b hnew, if_neg]
    rwa [(extends_ensureEnds g a b).identity?_eq i hi]

section Extends
variable {g h : Graph} (hg : g.WellFormed) (hext : h.Extends g)
include hg hext

theorem Extends.dependsOn {a b : Identity} (hab : g.DependsOn a b) : h.DependsOn a b := by
  obtain ⟨i, j, hi, hj, hjb⟩ := (mem_edges_iff g a b).1 hab
  have hilt : i < g.size := lt_size_of_identity? hi
  have hjlt : j < g.size := hg.neighbors_lt i j hj
  rw [← hext.identity?_eq i hilt] at hi
  rw [← hext.neighbors_eq i hilt] at hj
  rw [← hext.identity?_eq j hjlt] at hjb
  exact (mem_edges_iff h a b).2 ⟨i, j, hi, hj, hjb⟩

theorem Extends.addEdge (hh : h.WellFormed) {a b : Identity}
    (hab : a ∈ g.identities → g.DependsOn a b) : (h.addEdge a b).Extends g := by
  by_cases ha : a ∈ g.identities
  · rw [addEdge_of_dependsOn hh (hext.dependsOn hg (hab ha))]
    exact hext
  have hends := extends_ensureEnds h a b
  refine ⟨?_, fun i hi => ?_, fun i hi => ?_⟩
  · rw [size_eq_length (h.addEdge a b), identities_addEdge, ← size_eq_length]
    exact Nat.le_trans hext.size_le hends.size_le
  · rw [identity?_addEdge, hends.identity?_eq i (Nat.lt_of_lt_of_le hi hext.size_le)]
    exact hext.identity?_eq i hi
  · have hne : h.identity? i ≠ some a := by
      rw [hext.identity?_eq i hi]
      exact fun hia => ha ((mem_identities_iff g a).2 ⟨i, hia⟩)
    rw [neighbors_addEdge_of_ne hh.indexed (Nat.lt_of_lt_of_le hi hext.size_le) hne]
    exact hext.neighbors_eq i hi

theorem Extends.change (hh : h.WellFormed) {c : Change} (hc : c.Spares g) :
    (h.change c).Extends g := by
  cases c with
  | ensure a => exact (extends_ensure h a).trans hext
  | declare a => exact (extends_declare h a).trans hext
  | addEdge a b => exact hext.addEdge hg hh hc
  | clear => exact hc.elim

/-- What every change keeps, changes keep. -/
theorem Extends.changes (hh : h.WellFormed) (more : List Change)
    (hmore : ∀ c ∈ more, c.Spares g) :
    (more.foldl Graph.change h).Extends g ∧ (more.foldl Graph.change h).WellFormed := by
  induction more generalizing h with
  | nil => exact ⟨hext, hh⟩
  | cons c more ih =>
    obtain ⟨hc, hmore⟩ := List.forall_mem_cons.1 hmore
    exact ih (hext.change hg hh hc) (hh.change c) hmore

end Extends

/-! ## The recursion on a part of the graph -/

section Recursion
variable {g h : Graph} (hg : g.WellFormed) (hext : h.Extends g)
include hg hext

theorem follow_extends (path finished ahead : List Nat) (hahead : ∀ v ∈ ahead, v < g.size) :
    h.follow path finished ahead = g.follow path finished ahead := by
  -- the recursion on the smaller graph never leaves it, as its edges lead to components of it
  fun_induction follow g path finished ahead with
  | case1 path finished => rw [follow]
  | case2 path finished v ahead hv => rw [follow, if_pos hv]
  | case3 path finished v ahead hv hmem ih =>
    rw [follow, if_neg hv, if_pos hmem, ih (List.forall_mem_cons.1 hahead).2]
  | case4 path finished v ahead hv hmem finished' hinner ih ih' =>
    obtain ⟨hlt, hrest⟩ := List.forall_mem_cons.1 hahead
    rw [follow, if_neg hv, if_neg hmem, hext.neighbors_eq v hlt, ih (hg.neighbors_lt v), hinner]
    exact ih' hrest
  | case5 path finished v ahead hv hmem cycle hinner ih =>
    obtain ⟨hlt, -⟩ := List.forall_mem_cons.1 hahead
    rw [follow, if_neg hv, if_neg hmem, hext.neighbors_eq v hlt, ih (hg.neighbors_lt v), hinner]

theorem tryRoots_extends (finished roots : List Nat) (hroots : ∀ root ∈ roots, root < g.size) :
    h.tryRoots finished roots = g.tryRoots finished roots := by
  induction roots generalizing finished with
  | nil => rfl
  | cons root roots ih =>
    obtain ⟨hlt, hrest⟩ := List.forall_mem_cons.1 hroots
    have hfollow := follow_extends hg hext [root] finished _ (hg.neighbors_lt root)
    simp only [tryRoots, hext.neighbors_eq root hlt, hfollow, ih _ hrest]

end Recursion

/-! ## What the recursion leaves finished -/

section Finished
variable {g : Graph} {path finished finished' ahead roots c : List Nat} {n : Nat}

theorem prefix_of_follow (h : g.follow path finished ahead = .inl finished') :
    finished <+: finished' := by
  fun_induction follow g path finished ahead generalizing finished' with
  | case1 path finished =>
    cases h
    exact List.prefix_refl _
  | case2 => cases h
  | case3 path finished v ahead hv hmem ih => exact ih h
  | case4 path finished v ahead hv hmem inner hinner ih ih' =>
    exact (ih hinner).trans ((List.prefix_append inner [v]).trans (ih' h))
  | case5 => cases h

/-- A cycle that is met when all components below a number are finished, and none of them is on the
path, has none of them. -/
theorem le_of_follow_cycle (hfin : ∀ v < n, v ∈ finished) (hpath : ∀ v ∈ path, n ≤ v)
    (h : g.follow path finished ahead = .inr c) : ∀ v ∈ c, n ≤ v := by
  fun_induction follow g path finished ahead with
  | case1 => cases h
  | case2 path finished v ahead hv =>
    cases h
    rw [List.forall_mem_append, List.forall_mem_singleton]
    exact ⟨fun w hw => hpath w ((List.dropWhile_sublist _).subset hw), hpath v hv⟩
  | case3 path finished v ahead hv hmem ih => exact ih hfin hpath h
  | case4 path finished v ahead hv hmem inner hinner ih ih' =>
    have hsub := (prefix_of_follow hinner).subset
    exact ih' (fun w hw => List.mem_append_left _ (hsub (hfin w hw))) hpath h
  | case5 path finished v ahead hv hmem cycle hinner ih =>
    cases h
    -- the path grows by a component that is not finished, so it still avoids those below
    have hnew : n ≤ v := by
      by_contra hlt
      exact hmem (hfin v (Nat.lt_of_not_le hlt))
    refine ih hfin ?_ hinner
    rw [List.forall_mem_append, List.forall_mem_singleton]
    exact ⟨hpath, hnew⟩

theorem prefix_of_tryRoots (h : g.tryRoots finished roots = .inl finished') :
    finished <+: finished' := by
  fun_induction tryRoots g finished roots with
  | case1 finished =>
    cases h
    exact List.prefix_refl _
  | case2 finished root roots hmem ih => exact ih h
  | case3 finished root roots hmem inner hinner ih =>
    exact (prefix_of_follow hinner).trans ((List.prefix_append inner [root]).trans (ih h))
  | case4 => cases h

theorem mem_of_tryRoots (h : g.tryRoots finished roots = .inl finished') :
    ∀ root ∈ roots, root ∈ finished' := by
  fun_induction tryRoots g finished roots with
  | case1 => exact fun _ hmem => absurd hmem List.not_mem_nil
  | case2 finished root roots hmem ih =>
    exact List.forall_mem_cons.2 ⟨(prefix_of_tryRoots h).subset hmem, ih h⟩
  | case3 finished root roots hmem inner hinner ih =>
    refine List.forall_mem_cons.2 ⟨?_, ih h⟩
    exact (prefix_of_tryRoots h).subset (List.mem_append_right _ List.mem_cons_self)
  | case4 => cases h

theorem le_of_tryRoots_cycle (hfin : ∀ v < n, v ∈ finished)
    (h : g.tryRoots finished roots = .inr c) : ∀ v ∈ c, n ≤ v := by
  fun_induction tryRoots g finished roots with
  | case1 => cases h
  | case2 finished root roots hmem ih => exact ih hfin h
  | case3 finished root roots hmem inner hinner ih =>
    have hsub := (prefix_of_follow hinner).subset
    exact ih (fun w hw => List.mem_append_left _ (hsub (hfin w hw))) h
  | case4 finished root roots hmem cycle hinner =>
    cases h
    have hnew : n ≤ root := by
      by_contra hlt
      exact hmem (hfin root (Nat.lt_of_not_le hlt))
    exact le_of_follow_cycle hfin (List.forall_mem_singleton.2 hnew) hinner

theorem tryRoots_append (g : Graph) (finished roots roots' : List Nat) :
    g.tryRoots finished (roots ++ roots') =
      match g.tryRoots finished roots with
      | .inl finished' => g.tryRoots finished' roots'
      | .inr c => .inr c := by
  fun_induction tryRoots g finished roots with
  | case1 finished => rfl
  | case2 finished root roots hmem ih => rw [List.cons_append, tryRoots, if_pos hmem, ih]
  | case3 finished root roots hmem inner hinner ih =>
    rw [List.cons_append, tryRoots, if_neg hmem, hinner]
    exact ih
  | case4 finished root roots hmem cycle hinner =>
    rw [List.cons_append, tryRoots, if_neg hmem, hinner]

end Finished

/-! ## The outcome for a larger graph -/

theorem run_start_eq {g : Graph} (hg : g.WellFormed) :
    (Search.start g).run g = g.tryRoots [] (List.range g.size) :=
  Search.run_eq_tryRoots hg [] (List.range g.size) (fun _ h => List.mem_range.1 h)
    (Search.start g) (Search.invariant_start g) rfl rfl rfl

theorem lt_size_of_run {g : Graph} (hg : g.WellFormed) :
    ∀ v ∈ ((Search.start g).run g).elim id id, v < g.size := by
  obtain ⟨e, hinv, ⟨order, hstep, hrun⟩ | ⟨c, hstep, hrun⟩⟩ := Search.start_ends hg
  · obtain ⟨-, -, rfl⟩ := Search.step_eq_ordered hstep
    rw [hrun]
    exact fun v hv => hinv.inside v (List.mem_append_right _ (List.mem_reverse.1 hv))
  · obtain ⟨u, v, ahead, path, hpath, hgray, rfl⟩ := Search.step_eq_cycle hstep
    obtain ⟨behind, hcycle, -, hlt, -⟩ := exists_cycle_of_gray hinv hpath hgray
    rw [hrun]
    intro w hw
    have hmem : w ∈ (v :: behind) ++ [v] := by
      rw [← List.cons_append] at hcycle
      exact hcycle ▸ hw
    rcases List.mem_append.1 hmem with hw | hw
    · exact hlt w hw
    · rw [List.mem_singleton.1 hw]
      exact hlt v List.mem_cons_self

section Outcome
variable {g h : Graph} (hg : g.WellFormed) (hh : h.WellFormed) (hext : h.Extends g)
include hext

theorem Extends.identitiesOf_eq {ids : List Nat} (hids : ∀ i ∈ ids, i < g.size) :
    h.identitiesOf ids = g.identitiesOf ids :=
  List.filterMap_congr fun i hi => hext.identity?_eq i (hids i hi)

include hh in
theorem Extends.notMem_identities {ids : List Nat} (hids : ∀ i ∈ ids, g.size ≤ i) :
    ∀ a ∈ h.identitiesOf ids, a ∉ g.identities := by
  intro a ha hold
  obtain ⟨i, hi, hia⟩ := (mem_identitiesOf h ids a).1 ha
  obtain ⟨j, hja⟩ := (mem_identities_iff g a).1 hold
  have hjlt : j < g.size := lt_size_of_identity? hja
  rw [← hext.identity?_eq j hjlt] at hja
  have hij : i = j := identity?_inj hh.indexed hia hja
  have hle := hids i hi
  omega

include hg hh

/-- The search on the larger graph goes on where the search on the smaller one ends. -/
theorem run_extends :
    (Search.start h).run h =
      match (Search.start g).run g with
      | .inl order => h.tryRoots order ((List.range (h.size - g.size)).map (g.size + ·))
      | .inr c => .inr c := by
  -- the roots of the larger graph are those of the smaller one, and then the new components
  have hsize : h.size = g.size + (h.size - g.size) := (Nat.add_sub_of_le hext.size_le).symm
  have hsmall := tryRoots_extends hg hext [] (List.range g.size) fun _ hv => List.mem_range.1 hv
  rw [run_start_eq hh, run_start_eq hg, ← hsmall, ← tryRoots_append, ← List.range_add, ← hsize]

/-- An order of the smaller graph is continued, unless the new components have a cycle among
themselves; a cycle of the smaller graph is found again. -/
theorem outcome_of_extends :
    (∀ order, g.outcome = .ordered order →
        (∃ later, h.outcome = .ordered (order ++ later)) ∨
          ∃ c, h.outcome = .cycle c ∧ ∀ a ∈ c, a ∉ g.identities) ∧
      ∀ c, g.outcome = .cycle c → h.outcome = .cycle c := by
  have hrun := run_extends hg hh hext
  have hlt := lt_size_of_run hg
  unfold outcome
  rw [hrun]
  cases hsmall : (Search.start g).run g with
  | inr c =>
    rw [hsmall] at hlt
    have hsame : h.identitiesOf c = g.identitiesOf c := hext.identitiesOf_eq hlt
    refine ⟨nofun, fun c' hc => ?_⟩
    cases hc
    exact congrArg Outcome.cycle hsame
  | inl order =>
    rw [hsmall] at hlt
    have hsame : h.identitiesOf order = g.identitiesOf order := hext.identitiesOf_eq hlt
    have hall : ∀ v < g.size, v ∈ order := by
      rw [run_start_eq hg] at hsmall
      exact fun v hv => mem_of_tryRoots hsmall v (List.mem_range.2 hv)
    refine ⟨fun order' ho => ?_, nofun⟩
    cases ho
    dsimp only
    cases hlarge : h.tryRoots order ((List.range (h.size - g.size)).map (g.size + ·)) with
    | inl order' =>
      obtain ⟨later, rfl⟩ := prefix_of_tryRoots hlarge
      refine Or.inl ⟨h.identitiesOf later, ?_⟩
      dsimp only
      rw [identitiesOf_append, hsame]
    | inr c =>
      exact Or.inr ⟨_, rfl, hext.notMem_identities hh (le_of_tryRoots_cycle hall hlarge)⟩

end Outcome

theorem after_append (changes more : List Change) :
    after (changes ++ more) = more.foldl change (after changes) :=
  List.foldl_append

theorem outcome_after_append (changes more : List Change)
    (hmore : ∀ c ∈ more, c.Spares (after changes)) :
    (∀ order, (after changes).outcome = .ordered order →
        (∃ later, (after (changes ++ more)).outcome = .ordered (order ++ later)) ∨
          ∃ c, (after (changes ++ more)).outcome = .cycle c ∧
            ∀ a ∈ c, a ∉ (after changes).identities) ∧
      ∀ c, (after changes).outcome = .cycle c → (after (changes ++ more)).outcome = .cycle c := by
  have hwell := wellFormed_after changes
  obtain ⟨hext, hwell'⟩ := (Extends.refl (after changes)).changes hwell hwell more hmore
  rw [after_append]
  exact outcome_of_extends hwell hwell' hext

end ComponentWiring.Graph
