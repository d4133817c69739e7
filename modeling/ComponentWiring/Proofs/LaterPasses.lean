import ComponentWiring.Proofs.Acceptance
import ComponentWiring.Proofs.GraphGrowth

/-! # What earlier passes mean for later ones

The graph of a pipeline only grows until it is reset. So a cycle that was found stays, and an order
that was handed out is continued by passes that declare components nobody mentioned before. The
check of declarations may be any; the graph is ordered by the search.

* `Rules.searching`: any check, and the search.
* `Builder.dependsOn_addAll`, `Builder.extends_addAll`: how the graph of a builder grows.
* `Pipeline.Passed.of_cyclic`: a pass over a graph with a cycle hands out no order.
* `Pipeline.no_order_after_cycle`: after a cycle no order is handed out until the next reset.
* `Pipeline.LastOrder`: the order that was handed out last.
* `Pipeline.order_continued`: orders of graphs that grow.
-/

namespace ComponentWiring
set_option autoImplicit false

namespace Pipeline.Sample
open ComponentWiring.Sample

def cli : Identity := ⟨"cli", by decide, by decide⟩

def cliOnApp : Declaration := ⟨cli, .concrete, true, [app], none⟩

end Pipeline.Sample

/-- Any check of declarations, with the search of the program. -/
def Rules.searching (validator : Validator) : Rules := ⟨validator, Graph.order⟩

/-! ## How the graph of a builder grows -/

namespace Graph

theorem Acyclic.anti {g g' : Graph} (h : g'.Acyclic)
    (hmono : ∀ a b, g.DependsOn a b → g'.DependsOn a b) : g.Acyclic :=
  fun a hself => h a (Relation.TransGen.mono hmono a a hself)

end Graph

namespace Declaration

/-- What a declaration changes in a graph. -/
def changes (d : Declaration) : List Graph.Change :=
  .declare d.identity :: d.dependencies.map (.addEdge d.identity)

theorem spares_changes {g : Graph} {d : Declaration} (hd : d.identity ∉ g.identities) :
    ∀ c ∈ d.changes, c.Spares g := by
  refine List.forall_mem_cons.2 ⟨trivial, fun c hc => ?_⟩
  obtain ⟨y, -, rfl⟩ := List.mem_map.1 hc
  exact fun hold => absurd hold hd

end Declaration

namespace Builder

theorem insertInto_eq_foldl (g : Graph) (d : Declaration) :
    insertInto g d = d.changes.foldl Graph.change g := by
  rw [Declaration.changes, List.foldl_cons, List.foldl_map]
  rfl

section Growth
variable {b : Builder} (hb : b.graph.WellFormed)
include hb

theorem wellFormed_add (d : Declaration) : (b.add d).graph.WellFormed := by
  unfold add
  split
  · exact wellFormed_insertInto d hb
  · exact hb

theorem dependsOn_add (d : Declaration) {x y : Identity} (hxy : b.graph.DependsOn x y) :
    (b.add d).graph.DependsOn x y := by
  unfold add
  split
  · exact (mem_edges_insertInto d hb x y).2 (Or.inl hxy)
  · exact hxy

theorem extends_add {g : Graph} (hg : g.WellFormed) (hext : b.graph.Extends g) {d : Declaration}
    (hd : d.identity ∉ g.identities) : (b.add d).graph.Extends g := by
  unfold add
  split
  · rw [insertInto_eq_foldl]
    exact (hext.changes hg hb d.changes (Declaration.spares_changes hd)).1
  · exact hext

/-- No declaration takes a dependency away. -/
theorem dependsOn_addAll (ds : List Declaration) {x y : Identity}
    (hxy : b.graph.DependsOn x y) : (b.addAll ds).graph.DependsOn x y := by
  induction ds generalizing b with
  | nil => exact hxy
  | cons d ds ih => exact ih (wellFormed_add hb d) (dependsOn_add hb d hxy)

theorem extends_addAll {g : Graph} (hg : g.WellFormed) (hext : b.graph.Extends g)
    {ds : List Declaration} (hds : ∀ d ∈ ds, d.identity ∉ g.identities) :
    (b.addAll ds).graph.Extends g := by
  induction ds generalizing b with
  | nil => exact hext
  | cons d ds ih =>
    obtain ⟨hd, hds⟩ := List.forall_mem_cons.1 hds
    exact ih (wellFormed_add hb d) (extends_add hb hg hext hd) hds

end Growth

end Builder

namespace Call

def order? : Call → Option (List Identity)
  | emit order => some order
  | report _ => none

end Call

namespace Pipeline

theorem wellFormed_run {σ : Type} (rules : Rules) (effects : Effects σ) (moves : List Move)
    (world : σ) : (run rules effects moves world).1.builder.graph.WellFormed := by
  rw [builder_run_admitted]
  exact (Builder.holds_addAll _ (nodup_admitted rules moves)).wellFormed

/-! ## After a cycle -/

/-- There was no work, or the batch was rejected, or there was a cycle. -/
def WithoutOrder (r : Except Error PassResult) : Prop :=
  r = .ok .noWork ∨ (∃ violations, r = .ok (.invalid violations)) ∨ ∃ path, r = .ok (.cycle path)

section Cycle
variable {σ : Type} {validator : Validator} {effects : Effects σ}

section Passed
variable {p p' : Pipeline} {batch : List Declaration} {result : Except Error PassResult}
  {calls : List Call} (h : Passed (.searching validator) effects p batch result p' calls)
include h

theorem Passed.dependsOn (hp : p.builder.graph.WellFormed) (a b : Identity)
    (hab : p.builder.graph.DependsOn a b) : p'.builder.graph.DependsOn a b := by
  rw [h.builder_eq]
  split
  · exact Builder.dependsOn_addAll hp _ hab
  · exact hab

theorem Passed.of_cyclic (hp : p.builder.graph.WellFormed) (hp' : p'.builder.graph.WellFormed)
    (hcyclic : ¬ p.builder.graph.Acyclic) :
    ¬ p'.builder.graph.Acyclic ∧ WithoutOrder result ∧ ∀ order, .emit order ∉ calls := by
  have hcyclic' : ¬ p'.builder.graph.Acyclic :=
    fun hacyclic => hcyclic (hacyclic.anti (h.dependsOn hp))
  have hnone : ∀ order, .emit order ∉ calls := by
    intro order hmem
    have horder : p'.builder.graph.outcome = .ordered order := (h.eq_of_emit_mem hmem).2
    exact hcyclic' (Graph.orders_of_outcome hp' horder).acyclic
  refine ⟨hcyclic', ?_, hnone⟩
  cases h with
  | noWork => exact Or.inl rfl
  | invalid => exact Or.inr (Or.inl ⟨_, rfl⟩)
  | cycle path => exact Or.inr (Or.inr ⟨path, rfl⟩)
  | emitted order => exact absurd (List.mem_singleton_self _) (hnone order)
  | failed order => exact absurd (List.mem_singleton_self _) (hnone order)

theorem Passed.cyclic_of_cycle (hp' : p'.builder.graph.WellFormed) {path : List Identity}
    (hresult : result = .ok (.cycle path)) :
    ¬ p'.builder.graph.Acyclic ∧ ∀ order, .emit order ∉ calls := by
  cases h with
  | cycle path' _ _ hcycle =>
    have hfound : Graph.outcome _ = .cycle path' := hcycle
    exact ⟨(Graph.isCycle_of_outcome hp' hfound).not_acyclic, by simp⟩
  | noWork => cases hresult
  | invalid => cases hresult
  | emitted => cases hresult
  | failed => cases hresult

end Passed

variable (moves : List Move) (world : σ)

theorem passes_of_cyclic (batches : List (List Declaration))
    (hcyclic : ¬ (run (.searching validator) effects moves world).1.builder.graph.Acyclic) :
    (∀ r ∈ resultsFrom (.searching validator) effects
        (run (.searching validator) effects moves world) (batches.map .pass), WithoutOrder r) ∧
      ∃ new, calls (.searching validator) effects (moves ++ batches.map .pass) world =
        calls (.searching validator) effects moves world ++ new ∧ ∀ order, .emit order ∉ new := by
  induction batches generalizing moves with
  | nil => exact ⟨nofun, [], by simp, nofun⟩
  | cons batch batches ih =>
    obtain ⟨first, hpassed, hfirst⟩ := passed_run (.searching validator) effects moves batch world
    have hwell := wellFormed_run (.searching validator) effects moves world
    have hwell' := wellFormed_run (.searching validator) effects (moves ++ [.pass batch]) world
    obtain ⟨hcyclic', hresult, hnone⟩ := hpassed.of_cyclic hwell hwell' hcyclic
    obtain ⟨hresults, new, hnew, hnone'⟩ := ih _ hcyclic'
    rw [run_concat] at hresults
    refine ⟨?_, first ++ new, ?_, ?_⟩
    · rw [List.map_cons, resultsFrom, List.forall_mem_cons]
      exact ⟨hresult, hresults⟩
    · rw [List.map_cons, List.append_cons, hnew, hfirst, List.append_assoc]
    · simp only [List.mem_append, not_or]
      exact fun order => ⟨hnone order, hnone' order⟩

/-- Once a pass comes to a cycle, every later one up to the next reset comes to no work, to a
rejected batch or to a cycle, and no order is handed out. -/
theorem no_order_after_cycle (batch : List Declaration) {path : List Identity}
    (h : results (.searching validator) effects (moves ++ [.pass batch]) world =
      results (.searching validator) effects moves world ++ [.ok (.cycle path)])
    (batches : List (List Declaration)) :
    (∃ later, results (.searching validator) effects
          (moves ++ .pass batch :: batches.map .pass) world =
        results (.searching validator) effects moves world ++ .ok (.cycle path) :: later ∧
      ∀ r ∈ later, WithoutOrder r) ∧
    ∃ new, calls (.searching validator) effects (moves ++ .pass batch :: batches.map .pass) world =
        calls (.searching validator) effects moves world ++ new ∧
      ∀ order, .emit order ∉ new := by
  obtain ⟨first, hpassed, hfirst⟩ := passed_run (.searching validator) effects moves batch world
  have hwell := wellFormed_run (.searching validator) effects (moves ++ [.pass batch]) world
  have hlast := h
  rw [results_append] at hlast
  simp only [resultsFrom, List.append_cancel_left_eq, List.cons.injEq, and_true] at hlast
  -- the pass that comes to the cycle hands out nothing, and leaves a graph with it
  obtain ⟨hcyclic, hnone⟩ := hpassed.cyclic_of_cycle hwell hlast
  obtain ⟨hlater, new, hnew, hnone'⟩ := passes_of_cyclic _ world batches hcyclic
  rw [List.append_cons, results_append, h, hnew, hfirst, List.append_assoc, List.append_assoc]
  refine ⟨⟨_, rfl, hlater⟩, first ++ new, rfl, ?_⟩
  simp only [List.mem_append, not_or]
  exact fun order => ⟨hnone order, hnone' order⟩

end Cycle

namespace Sample
open ComponentWiring.Sample

theorem no_order_after_cycle_of_two :
    results .standard writing ([.pass [appOnStore]] ++ [.pass [storeOnApp]]) () =
        results .standard writing [.pass [appOnStore]] () ++ [.ok (.cycle [app, store, app])] ∧
      ∃ later, results .standard writing
          [.pass [appOnStore], .pass [storeOnApp], .pass [], .pass [.concrete cli]] () =
          results .standard writing [.pass [appOnStore]] () ++
            .ok (.cycle [app, store, app]) :: later ∧
        ∀ r ∈ later, WithoutOrder r := by
  have h : results .standard writing ([.pass [appOnStore]] ++ [.pass [storeOnApp]]) () =
      results .standard writing [.pass [appOnStore]] () ++ [.ok (.cycle [app, store, app])] := by
    cbv
  exact ⟨h, (no_order_after_cycle [.pass [appOnStore]] () [storeOnApp] h [[], [.concrete cli]]).1⟩

end Sample

/-! ## After an order -/

/-- An order is the one that was handed out last, and there was no reset since. -/
def LastOrder {σ : Type} (rules : Rules) (effects : Effects σ) (moves : List Move) (world : σ)
    (order : List Identity) : Prop :=
  ∃ before, ∃ batches : List (List Declaration), ∃ since,
    moves = before ++ batches.map .pass ∧
    calls rules effects moves world = calls rules effects before world ++ since ∧
    (since.filterMap Call.order?).getLast? = some order

section Order
variable {σ : Type} {validator : Validator} {effects : Effects σ}

section Passed
variable {p p' : Pipeline} {batch : List Declaration} {result : Except Error PassResult}
  {new : List Call} (h : Passed (.searching validator) effects p batch result p' new)
include h

/-- A pass that hands out no order leaves the graph or comes to a cycle. -/
theorem Passed.last_order :
    (p'.builder = p.builder ∧ new.filterMap Call.order? = []) ∨
      (∃ path, p'.builder.graph.outcome = .cycle path) ∨
      ∃ order, new.filterMap Call.order? = [order] ∧ p'.builder.graph.outcome = .ordered order := by
  cases h with
  | noWork => exact Or.inl ⟨rfl, rfl⟩
  | invalid =>
    refine Or.inl ⟨rfl, ?_⟩
    rw [List.filterMap_map]
    exact List.filterMap_eq_nil_iff.2 fun _ _ => rfl
  | cycle path _ _ hcycle => exact Or.inr (Or.inl ⟨path, hcycle⟩)
  | emitted order _ _ _ _ horder => exact Or.inr (Or.inr ⟨order, rfl, horder⟩)
  | failed order _ _ _ _ horder => exact Or.inr (Or.inr ⟨order, rfl, horder⟩)

/-- A batch of new components only lets the graph grow past the one before. -/
theorem Passed.graph_extends (hp : p.builder.graph.WellFormed)
    (hnew : ∀ d ∈ p.taken batch, d.identity ∉ p.builder.graph.identities) :
    p'.builder.graph.Extends p.builder.graph := by
  rw [h.builder_eq]
  split
  · exact Builder.extends_addAll hp hp (.refl _) hnew
  · exact .refl _

end Passed

variable {moves : List Move} {world : σ} {order order' : List Identity}

theorem exists_calls_since (before : List Move) (batches : List (List Declaration)) (world : σ) :
    ∃ since, calls (.searching validator) effects (before ++ batches.map .pass) world =
        calls (.searching validator) effects before world ++ since ∧
      ∀ order, (since.filterMap Call.order?).getLast? = some order → ∀ order',
        let p := (run (.searching validator) effects (before ++ batches.map .pass) world).1
        p.builder.graph.outcome = .ordered order' → order' = order := by
  induction batches using List.reverseRecOn with
  | nil => exact ⟨[], by simp, nofun⟩
  | append_singleton batches batch ih =>
    obtain ⟨since, hsince, hlast⟩ := ih
    obtain ⟨new, hpassed, hnew⟩ := passed_run (.searching validator) effects
      (before ++ batches.map .pass) batch world
    rw [List.map_append, ← List.append_assoc]
    refine ⟨since ++ new, ?_, fun order horder order' horder' => ?_⟩
    · rw [← List.append_assoc, ← hsince]
      exact hnew
    rw [List.filterMap_append] at horder
    -- the last order is an earlier one where the last pass hands out none
    rcases hpassed.last_order with ⟨hsame, hnone⟩ | ⟨path, hcycle⟩ | ⟨newest, hone, hnewest⟩
    · rw [hnone, List.append_nil] at horder
      refine hlast order horder order' ?_
      rw [← hsame]
      exact horder'
    · cases hcycle.symm.trans horder'
    · rw [hone, List.getLast?_concat, Option.some.injEq] at horder
      cases hnewest.symm.trans horder'
      exact horder

/-- The graph still has the order that was handed out last, or by now it has none. -/
theorem LastOrder.eq_of_outcome (h : LastOrder (.searching validator) effects moves world order)
    (horder' : (run (.searching validator) effects moves world).1.builder.graph.outcome =
      .ordered order') : order' = order := by
  obtain ⟨before, batches, since, rfl, hcalls, hlast⟩ := h
  obtain ⟨since', hsince', hunique⟩ :=
    exists_calls_since before batches world
  obtain rfl : since = since' := List.append_cancel_left (hcalls.symm.trans hsince')
  exact hunique order hlast order' horder'

/-- A pass that declares only new components continues the order that was handed out last. -/
theorem LastOrder.prefix_of_emit (h : LastOrder (.searching validator) effects moves world order)
    {next : List Declaration}
    (hnext : ∀ d ∈ (run (.searching validator) effects moves world).1.taken next,
      d.identity ∉ (run (.searching validator) effects moves world).1.builder.graph.identities)
    {new : List Call}
    (hnew : calls (.searching validator) effects (moves ++ [.pass next]) world =
      calls (.searching validator) effects moves world ++ new)
    (hemit : .emit order' ∈ new) : order <+: order' := by
  have hwell := wellFormed_run (.searching validator) effects moves world
  have hwell' := wellFormed_run (.searching validator) effects (moves ++ [.pass next]) world
  obtain ⟨new', hpassed, hnew'⟩ := passed_run (.searching validator) effects moves next world
  obtain rfl : new = new' := List.append_cancel_left (hnew.symm.trans hnew')
  have horder' : Graph.outcome _ = .ordered order' := (hpassed.eq_of_emit_mem hemit).2
  obtain ⟨hcontinue, hcycle⟩ :=
    Graph.outcome_of_extends hwell hwell' (hpassed.graph_extends hwell hnext)
  cases hbefore : (run (.searching validator) effects moves world).1.builder.graph.outcome with
  | cycle path => cases horder'.symm.trans (hcycle path hbefore)
  | ordered order =>
    obtain rfl := h.eq_of_outcome hbefore
    rcases hcontinue _ hbefore with ⟨later, hlater⟩ | ⟨c, hc, -⟩
    · cases horder'.symm.trans hlater
      exact List.prefix_append _ later
    · cases horder'.symm.trans hc

end Order

/-- Where a graph grows by changes that give its components no new dependencies, an order is
continued or there is a cycle among the new components, and a cycle is found again. So a pass that
declares only new components continues the order that was handed out last. -/
theorem order_continued :
    (∀ changes more : List Graph.Change, (∀ c ∈ more, c.Spares (Graph.after changes)) →
      (∀ order, (Graph.after changes).outcome = .ordered order →
          (∃ later, (Graph.after (changes ++ more)).outcome = .ordered (order ++ later)) ∨
            ∃ c, (Graph.after (changes ++ more)).outcome = .cycle c ∧
              ∀ a ∈ c, a ∉ (Graph.after changes).identities) ∧
        ∀ c, (Graph.after changes).outcome = .cycle c →
          (Graph.after (changes ++ more)).outcome = .cycle c) ∧
    ∀ (σ : Type) (validator : Validator) (effects : Effects σ) (moves : List Move) (world : σ)
      (order order' : List Identity) (next : List Declaration) (new : List Call),
      LastOrder (.searching validator) effects moves world order →
      (∀ d ∈ (run (.searching validator) effects moves world).1.taken next,
        d.identity ∉ (run (.searching validator) effects moves world).1.builder.graph.identities) →
      calls (.searching validator) effects (moves ++ [.pass next]) world =
        calls (.searching validator) effects moves world ++ new →
      .emit order' ∈ new → order <+: order' := by
  refine ⟨Graph.outcome_after_append, ?_⟩
  intro σ validator effects moves world order order' next new hlast hnext hnew hemit
  exact hlast.prefix_of_emit hnext hnew hemit

namespace Sample
open ComponentWiring.Sample

theorem order_continued_of_two :
    ((∃ later, (Graph.after [.addEdge app store, .addEdge cli app]).outcome =
          .ordered ([store, app] ++ later)) ∨
        ∃ c, (Graph.after [.addEdge app store, .addEdge cli app]).outcome = .cycle c ∧
          ∀ a ∈ c, a ∉ (Graph.after [.addEdge app store]).identities) ∧
      calls .standard writing ([.pass [appOnStore]] ++ [.pass [cliOnApp]]) () =
        calls .standard writing [.pass [appOnStore]] () ++ [.emit [store, app, cli]] ∧
      [store, app] <+: [store, app, cli] := by
  obtain ⟨hgraphs, hpasses⟩ := order_continued
  have hspares : ∀ c ∈ [Graph.Change.addEdge cli app],
      c.Spares (Graph.after [.addEdge app store]) := by
    simp only [List.forall_mem_singleton]
    exact fun hold => absurd hold (by decide)
  have hsmall : (Graph.after [.addEdge app store]).outcome = .ordered [store, app] := by cbv
  have hcalls : calls .standard writing ([.pass [appOnStore]] ++ [.pass [cliOnApp]]) () =
      calls .standard writing [.pass [appOnStore]] () ++ [.emit [store, app, cli]] := by cbv
  have hlast : LastOrder .standard writing [.pass [appOnStore]] () [store, app] :=
    ⟨[], [[appOnStore]], [.emit [store, app]], rfl, by cbv, rfl⟩
  have hnew : ∀ d ∈ (run .standard writing [.pass [appOnStore]] ()).1.taken [cliOnApp],
      d.identity ∉ (run .standard writing [.pass [appOnStore]] ()).1.builder.graph.identities := by
    rw [taken, builder_run_admitted]
    decide
  exact ⟨(hgraphs _ _ hspares).1 _ hsmall, hcalls,
    hpasses Unit .declarations writing _ () _ _ [cliOnApp] _ hlast hnew hcalls
      (List.mem_singleton_self _)⟩

end Sample

end Pipeline

end ComponentWiring
