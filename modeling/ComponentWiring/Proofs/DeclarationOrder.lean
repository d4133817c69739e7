import ComponentWiring.Proofs.FirstDeclarations

/-! # The order of declarations

What becomes of a graph and of its order when the same declarations come in another order. In every
order they make graphs that say the same. Where each comes after what it depends on, the search goes
through them as they stand.

* `Graph.Alike`: graphs with the same components, edges and declared components.
* `Graph.outcome_of_forward`: a graph whose components already stand in an order keeps it.
* `Builder.outcomes_of_perm`: the outcomes for the same declarations in two orders.
* `Declaration.Sorted`: declarations that come after those that they depend on.
* `Builder.outcomes_of_sorted`: the outcome for such declarations, and for what an order declares
  anew.
-/

namespace ComponentWiring
set_option autoImplicit false

namespace Builder.Sample
open ComponentWiring.Sample Pipeline.Sample

def storeAlone : Declaration := ⟨store, .concrete, true, [], none⟩

def cliOnBoth : Declaration := ⟨cli, .concrete, true, [app, store], none⟩

def log : Identity := ⟨"log", by decide, by decide⟩

def logAlone : Declaration := ⟨log, .concrete, true, [], none⟩

end Builder.Sample

namespace Graph

/-! ## Graphs that say the same -/

/-- The same components, edges and declared components, in any order. -/
structure Alike (g h : Graph) : Prop where
  identities : g.identities.Perm h.identities
  edges : g.edges.Perm h.edges
  edgeCount : g.edgeCount = h.edgeCount
  isDeclared : ∀ a, g.isDeclared a = h.isDeclared a

section Alike
variable {g h : Graph} (hgh : g.Alike h)
include hgh

theorem Alike.dependsOn_iff (a b : Identity) : g.DependsOn a b ↔ h.DependsOn a b :=
  hgh.edges.mem_iff

theorem Alike.acyclic_iff : g.Acyclic ↔ h.Acyclic := by
  constructor
  · exact fun hg => hg.anti fun a b => (hgh.dependsOn_iff a b).2
  · exact fun hh => hh.anti fun a b => (hgh.dependsOn_iff a b).1

theorem Alike.perm_of_orders {order order' : List Identity} (ho : g.Orders order)
    (ho' : h.Orders order') : order.Perm order' := by
  refine (List.perm_ext_iff_of_nodup ho.nodup ho'.nodup).2 fun a => ?_
  rw [ho.mem_iff, ho'.mem_iff, hgh.identities.mem_iff]

end Alike

/-! ## Components that stand in an order -/

theorem follow_of_finished {g : Graph} {path finished ahead : List Nat}
    (hpath : ∀ v ∈ ahead, v ∉ path) (hfin : ∀ v ∈ ahead, v ∈ finished) :
    g.follow path finished ahead = .inl finished := by
  induction ahead with
  | nil => rw [follow]
  | cons v ahead ih =>
    obtain ⟨hv, hpath⟩ := List.forall_mem_cons.1 hpath
    obtain ⟨hmem, hfin⟩ := List.forall_mem_cons.1 hfin
    rw [follow, if_neg hv, if_pos hmem, ih hpath hfin]

section Forward
variable {g : Graph}

/-- Where every dependency has a smaller number, each root finds all its dependencies finished. -/
theorem tryRoots_range (h : ∀ i, ∀ j ∈ g.neighbors i, j < i) (n : Nat) :
    g.tryRoots [] (List.range n) = .inl (List.range n) := by
  induction n with
  | zero => rfl
  | succ n ih =>
    have hfollow : g.follow [n] (List.range n) (g.neighbors n) = .inl (List.range n) := by
      apply follow_of_finished
      · intro v hv
        have hlt := h n v hv
        simp only [List.mem_singleton]
        omega
      · exact fun v hv => List.mem_range.2 (h n v hv)
    rw [List.range_succ, tryRoots_append, ih]
    simp [tryRoots, hfollow]

theorem identitiesOf_range (g : Graph) : g.identitiesOf (List.range g.size) = g.identities := by
  have hall : ∀ xs : List Identity, (List.range xs.length).filterMap (xs[·]?) = xs := by
    intro xs
    induction xs using List.reverseRecOn with
    | nil => rfl
    | append_singleton xs x ih =>
      have hold : ∀ i ∈ List.range xs.length, (xs ++ [x])[i]? = xs[i]? :=
        fun i hi => List.getElem?_append_left (List.mem_range.1 hi)
      rw [List.length_append, List.length_singleton, List.range_succ, List.filterMap_append,
        List.filterMap_congr hold, ih]
      simp
  have hget : ∀ i ∈ List.range g.size, g.identity? i = g.identities[i]? :=
    fun i _ => identity?_eq_getElem? g i
  rw [identitiesOf, List.filterMap_congr hget, size_eq_length, hall]

/-- A graph whose components stand after those that they depend on is ordered as it stands. -/
theorem outcome_of_forward (hg : g.WellFormed)
    (h : ∀ a b, g.DependsOn a b → g.identities.idxOf b < g.identities.idxOf a) :
    g.outcome = .ordered g.identities := by
  have hlt : ∀ i, ∀ j ∈ g.neighbors i, j < i := by
    intro i j hj
    obtain ⟨a, ha⟩ := exists_identity? (lt_size_of_mem_neighbors hj)
    obtain ⟨b, hb⟩ := exists_identity? (hg.neighbors_lt i j hj)
    have hab := h a b ((mem_edges_iff g a b).2 ⟨i, j, ha, hj, hb⟩)
    rwa [idxOf_of_identity? hg.indexed ha, idxOf_of_identity? hg.indexed hb] at hab
  rw [outcome, run_start_eq hg, tryRoots_range hlt]
  exact congrArg Outcome.ordered (identitiesOf_range g)

end Forward

theorem dependsOn_of_dependenciesOf? {g : Graph} (hg : g.Indexed) {a b : Identity}
    {bs : List Identity} (h : g.dependenciesOf? a = some bs) (hb : b ∈ bs) : g.DependsOn a b := by
  obtain ⟨i, hi, rfl⟩ := Option.map_eq_some_iff.1 h
  obtain ⟨j, hj, hjb⟩ := (mem_identitiesOf g _ b).1 hb
  exact (mem_edges_iff g a b).2 ⟨i, j, (hg a i).1 hi, hj, hjb⟩

end Graph

namespace Declaration

/-! ## Sorted declarations -/

/-- No component is declared twice, and every dependency is declared earlier. -/
structure Sorted (ds : List Declaration) : Prop where
  nodup : (ds.map (·.identity)).Nodup
  earlier : ∀ (i : Nat) (hi : i < ds.length), ∀ b ∈ ds[i].dependencies,
    b ∈ (ds.take i).map (·.identity)

section Sorted
variable {ds : List Declaration}

theorem idxOf_identity (h : (ds.map (·.identity)).Nodup) {i : Nat} (hi : i < ds.length) :
    (ds.map (·.identity)).idxOf ds[i].identity = i := by
  have hi' : i < (ds.map (·.identity)).length := by rwa [List.length_map]
  simpa using h.idxOf_getElem i hi'

theorem Sorted.of_concat {d : Declaration} (h : Sorted (ds ++ [d])) :
    Sorted ds ∧ d.identity ∉ ds.map (·.identity) ∧
      ∀ b ∈ d.dependencies, b ∈ ds.map (·.identity) := by
  have hnodup := h.nodup
  rw [List.map_append, List.nodup_append] at hnodup
  obtain ⟨hds, -, hne⟩ := hnodup
  refine ⟨⟨hds, fun i hi b hb => ?_⟩, fun hmem => ?_, fun b hb => ?_⟩
  · have hlt : i < (ds ++ [d]).length := by
      rw [List.length_append]
      omega
    have hmem := h.earlier i hlt b (by rwa [List.getElem_append_left hi])
    rwa [List.take_append_of_le_length (Nat.le_of_lt hi)] at hmem
  · exact hne _ hmem d.identity List.mem_cons_self rfl
  · have hmem := h.earlier ds.length (by simp) b (by simpa using hb)
    simpa using hmem

theorem removeAll_mentions {d : Declaration} {xs : List Identity} (hnew : d.identity ∉ xs)
    (hold : ∀ b ∈ d.dependencies, b ∈ xs) :
    (d.identity :: d.dependencies).removeAll xs = [d.identity] := by
  have hnone : d.dependencies.filter (fun b => !xs.elem b) = [] := by
    rw [List.filter_eq_nil_iff]
    intro b hb
    simpa using hold b hb
  rw [List.removeAll, List.filter_cons_of_pos (by simpa using hnew), hnone]

/-- What sorted declarations mention first is what they declare. -/
theorem Sorted.eraseDups_mentions (h : Sorted ds) :
    (ds.flatMap fun d => d.identity :: d.dependencies).eraseDups = ds.map (·.identity) := by
  induction ds using List.reverseRecOn with
  | nil => rfl
  | append_singleton ds d ih =>
    obtain ⟨hds, hnew, hold⟩ := h.of_concat
    rw [← ih hds, List.mem_eraseDups] at hnew
    simp only [← ih hds, List.mem_eraseDups] at hold
    rw [List.flatMap_append, List.flatMap_singleton, List.eraseDups_append,
      removeAll_mentions hnew hold, ih hds, List.map_append]
    rfl

theorem Sorted.idxOf_lt (h : Sorted ds) {d : Declaration} (hd : d ∈ ds) {b : Identity}
    (hb : b ∈ d.dependencies) :
    (ds.map (·.identity)).idxOf b < (ds.map (·.identity)).idxOf d.identity := by
  obtain ⟨i, hi, rfl⟩ := List.mem_iff_getElem.1 hd
  have hsplit : ds.map (·.identity) =
      (ds.take i).map (·.identity) ++ (ds.drop i).map (·.identity) := by
    rw [← List.map_append, List.take_append_drop]
  have hmem := h.earlier i hi b hb
  have hlt := List.idxOf_lt_length_of_mem hmem
  rw [List.length_map, List.length_take] at hlt
  rw [idxOf_identity h.nodup hi, hsplit, List.idxOf_append_of_mem hmem]
  omega

end Sorted

end Declaration

namespace Builder
open Declaration

/-! ## The same declarations in another order -/

section Perm
variable {ds es : List Declaration}

theorem nodup_edges_graphOf (ds : List Declaration) : (graphOf ds).edges.Nodup :=
  (observes_graphOf ds).edges_perm.nodup_iff.2 (Graph.nodup_eraseDups _)

theorem alike_of_perm (hds : (ds.map (·.identity)).Nodup) (h : ds.Perm es) :
    (graphOf ds).Alike (graphOf es) := by
  have hes : (es.map (·.identity)).Nodup := (h.map _).nodup_iff.1 hds
  have hedges : (graphOf ds).edges.Perm (graphOf es).edges := by
    refine (List.perm_ext_iff_of_nodup (nodup_edges_graphOf ds) (nodup_edges_graphOf es)).2 ?_
    rintro ⟨a, b⟩
    refine (dependsOn_graphOf hds a b).trans (Iff.trans ?_ (dependsOn_graphOf hes a b).symm)
    simp only [h.mem_iff]
  constructor
  case identities =>
    refine (List.perm_ext_iff_of_nodup (wellFormed_graphOf hds).nodup
      (wellFormed_graphOf hes).nodup).2 fun a => ?_
    rw [graphOf, graphOf, (holds_addAll ds hds).mem_identities_iff,
      (holds_addAll es hes).mem_identities_iff]
    simp only [h.mem_iff]
  case edges => exact hedges
  case edgeCount =>
    rw [Graph.edgeCount_eq (wellFormed_graphOf hds), Graph.edgeCount_eq (wellFormed_graphOf hes),
      hedges.length_eq]
  case isDeclared =>
    intro a
    rw [Bool.eq_iff_iff, isDeclared_graphOf, isDeclared_graphOf]
    exact (h.map _).mem_iff

/-- In every order, declarations of different components make graphs that say the same. Either all
of them are ordered or none is, and the orders differ in the order only. -/
theorem outcomes_of_perm (hds : (ds.map (·.identity)).Nodup) (h : ds.Perm es) :
    (graphOf ds).Alike (graphOf es) ∧
      ((∃ order, (graphOf ds).outcome = .ordered order) ↔
        ∃ order, (graphOf es).outcome = .ordered order) ∧
      ∀ order order', (graphOf ds).outcome = .ordered order →
        (graphOf es).outcome = .ordered order' →
          order.Perm order' ∧ (graphOf ds).Orders order ∧ (graphOf es).Orders order' := by
  have hes : (es.map (·.identity)).Nodup := (h.map _).nodup_iff.1 hds
  have halike := alike_of_perm hds h
  refine ⟨halike, ?_, fun order order' ho ho' => ?_⟩
  · rw [Graph.exists_ordered_iff (wellFormed_graphOf hds),
      Graph.exists_ordered_iff (wellFormed_graphOf hes), halike.acyclic_iff]
  · have horders := Graph.orders_of_outcome (wellFormed_graphOf hds) ho
    have horders' := Graph.orders_of_outcome (wellFormed_graphOf hes) ho'
    exact ⟨halike.perm_of_orders horders horders', horders, horders'⟩

end Perm

section Sample
open ComponentWiring.Sample Pipeline.Sample Sample

theorem outcomes_of_perm_of_three :
    ([logAlone, cliOnApp, appOnStore].map (·.identity)).Nodup ∧
      [logAlone, cliOnApp, appOnStore].Perm [appOnStore, cliOnApp, logAlone] ∧
      (graphOf [logAlone, cliOnApp, appOnStore]).outcome = .ordered [log, store, app, cli] ∧
      (graphOf [appOnStore, cliOnApp, logAlone]).outcome = .ordered [store, app, cli, log] ∧
      [log, store, app, cli].Perm [store, app, cli, log] ∧
      (graphOf [logAlone, cliOnApp, appOnStore]).Orders [log, store, app, cli] := by
  have hnodup : ([logAlone, cliOnApp, appOnStore].map (·.identity)).Nodup := by decide
  have hperm : [logAlone, cliOnApp, appOnStore].Perm [appOnStore, cliOnApp, logAlone] :=
    (List.reverse_perm _).symm
  have h : (graphOf [logAlone, cliOnApp, appOnStore]).outcome =
      .ordered [log, store, app, cli] := by cbv
  have h' : (graphOf [appOnStore, cliOnApp, logAlone]).outcome =
      .ordered [store, app, cli, log] := by cbv
  obtain ⟨-, -, hall⟩ := outcomes_of_perm hnodup hperm
  obtain ⟨horders, hfirst, -⟩ := hall _ _ h h'
  exact ⟨hnodup, hperm, h, h', horders, hfirst⟩

end Sample

/-! ## Sorted declarations -/

theorem outcome_graphOf_sorted {ds : List Declaration} (h : Sorted ds) :
    (graphOf ds).outcome = .ordered (ds.map (·.identity)) := by
  have hidentities : (graphOf ds).identities = ds.map (·.identity) := by
    rw [(observes_graphOf ds).identities, history, mentioned_flatMap, firsts_of_nodup h.nodup,
      h.eraseDups_mentions]
  rw [← hidentities]
  apply Graph.outcome_of_forward (wellFormed_graphOf h.nodup)
  intro a b hab
  obtain ⟨d, hd, rfl, hb⟩ := (dependsOn_graphOf h.nodup a b).1 hab
  rw [hidentities]
  exact h.idxOf_lt hd hb

/-- The components of an order with their dependencies are sorted declarations. -/
theorem sorted_of_orders {g : Graph} (hg : g.Indexed) {ds : List Declaration}
    (ho : g.Orders (ds.map (·.identity)))
    (hds : ∀ d ∈ ds, g.dependenciesOf? d.identity = some d.dependencies) : Sorted ds where
  nodup := ho.nodup
  earlier := by
    intro i hi b hb
    have hdep := Graph.dependsOn_of_dependenciesOf? hg (hds _ (List.getElem_mem hi)) hb
    have hlt := ho.before _ _ hdep
    rw [idxOf_identity ho.nodup hi] at hlt
    have hlen : (ds.map (·.identity)).idxOf b < (ds.map (·.identity)).length := by
      rw [List.length_map]
      omega
    rw [List.map_take, List.mem_take_iff_getElem]
    refine ⟨_, ?_, List.getElem_idxOf hlen⟩
    omega

/-- Declarations that come after those that they depend on are ordered as they come. So the
components of an order, declared in that order with their dependencies, are ordered in the same
way again. -/
theorem outcomes_of_sorted :
    (∀ ds, Sorted ds → (graphOf ds).outcome = .ordered (ds.map (·.identity))) ∧
      ∀ changes order ds, (Graph.after changes).outcome = .ordered order →
        ds.map (·.identity) = order →
          (∀ d ∈ ds, (Graph.after changes).dependenciesOf? d.identity = some d.dependencies) →
            (graphOf ds).outcome = .ordered order := by
  refine ⟨fun ds h => outcome_graphOf_sorted h, ?_⟩
  rintro changes _ ds ho rfl hds
  have hg := Graph.wellFormed_after changes
  exact outcome_graphOf_sorted (sorted_of_orders hg.indexed (Graph.orders_of_outcome hg ho) hds)

section Sample
open ComponentWiring.Sample Pipeline.Sample Sample

/-- The graph has the components in the opposite order, and none of them is declared. -/
theorem outcomes_of_sorted_of_three :
    Sorted [storeAlone, appOnStore, cliOnBoth] ∧
      (Graph.after [.addEdge cli app, .addEdge cli store, .addEdge app store]).outcome =
        .ordered [store, app, cli] ∧
      (graphOf [storeAlone, appOnStore, cliOnBoth]).outcome = .ordered [store, app, cli] ∧
      (graphOf [storeAlone, appOnStore, cliOnBoth]).outcome =
        .ordered ([storeAlone, appOnStore, cliOnBoth].map (·.identity)) := by
  have hsorted : Sorted [storeAlone, appOnStore, cliOnBoth] := ⟨by decide, by decide⟩
  have h : (Graph.after [.addEdge cli app, .addEdge cli store, .addEdge app store]).outcome =
      .ordered [store, app, cli] := by cbv
  have hdependencies : ∀ d ∈ [storeAlone, appOnStore, cliOnBoth],
      (Graph.after [.addEdge cli app, .addEdge cli store, .addEdge app store]).dependenciesOf?
        d.identity = some d.dependencies := by decide
  exact ⟨hsorted, h, outcomes_of_sorted.2 _ _ _ h rfl hdependencies,
    outcomes_of_sorted.1 _ hsorted⟩

end Sample

end Builder
end ComponentWiring
