import ComponentWiring.Proofs.Acceptance

/-! # Verdicts

Where no emission fails, what a pass comes to is told from the batch and from the declarations that
were accepted before, without a pipeline.

* `Builder.graphOf`: the graph that declarations make.
* `Pipeline.verdict`, `Pipeline.verdicts`: what a pass and what passes over batches come to.
* `Pipeline.Judged`: the ways in which a verdict comes about.
* `Pipeline.Passed.verdict`: a pass comes to its verdict, unless an emission fails.
* `Pipeline.isCycle_of_mem_verdicts`: a cycle that is found is one of every later graph.
* `Pipeline.isFailure_verdicts_iff`: no verdict is a failure exactly when every fresh declaration is
  valid and the last graph has no cycle.
-/

namespace ComponentWiring
set_option autoImplicit false

/-! ## Graphs of declarations -/

namespace Builder

/-- The graph of a builder that was given declarations and nothing else. -/
def graphOf (ds : List Declaration) : Graph := (empty.addAll ds).graph

theorem acyclic_graphOf_nil : (graphOf []).Acyclic := by
  have hordered : (graphOf []).outcome = .ordered [] := by cbv
  exact (Graph.orders_of_outcome holds_empty.wellFormed hordered).acyclic

variable {ds es : List Declaration}

theorem wellFormed_graphOf (h : (ds.map (·.identity)).Nodup) : (graphOf ds).WellFormed :=
  (holds_addAll ds h).wellFormed

theorem dependsOn_graphOf (h : (ds.map (·.identity)).Nodup) (a c : Identity) :
    (graphOf ds).DependsOn a c ↔ ∃ d ∈ ds, d.identity = a ∧ c ∈ d.dependencies :=
  (holds_addAll ds h).dependsOn_iff a c

theorem listed_of_outcome (h : (ds.map (·.identity)).Nodup) {order : List Identity}
    (ho : (graphOf ds).outcome = .ordered order) : Declaration.Listed ds order :=
  (holds_addAll ds h).listed (Graph.orders_of_outcome (wellFormed_graphOf h) ho)

theorem length_of_listed (h : (ds.map (·.identity)).Nodup) {order : List Identity}
    (hlisted : Declaration.Listed ds order) : order.length = (graphOf ds).size := by
  have hholds : (empty.addAll ds).Holds ds := holds_addAll ds h
  have hmem : ∀ a, a ∈ order ↔ a ∈ (graphOf ds).identities := by
    intro a
    rw [hlisted.mem_iff]
    exact (hholds.mem_identities_iff a).symm
  have hperm : order.Perm (graphOf ds).identities :=
    (List.perm_ext_iff_of_nodup hlisted.nodup hholds.wellFormed.nodup).2 hmem
  rw [hperm.length_eq, Graph.size_eq_length]

theorem dependsOn_graphOf_append (h : ((ds ++ es).map (·.identity)).Nodup) {a c : Identity}
    (hac : (graphOf ds).DependsOn a c) : (graphOf (ds ++ es)).DependsOn a c := by
  have hds : (ds.map (·.identity)).Nodup :=
    h.sublist ((List.sublist_append_left ds es).map _)
  obtain ⟨d, hd, hrest⟩ := (dependsOn_graphOf hds a c).1 hac
  exact (dependsOn_graphOf h a c).2 ⟨d, List.mem_append_left es hd, hrest⟩

end Builder

namespace Graph

theorem IsCycle.mono {g g' : Graph} {c : List Identity} (h : g.IsCycle c)
    (hmono : ∀ a b, g.DependsOn a b → g'.DependsOn a b) : g'.IsCycle c :=
  ⟨h.two_le, h.closed, h.nodup, h.chain.imp hmono⟩

theorem Orders.length_eq {g : Graph} {order : List Identity} (h : g.Orders order)
    (hg : g.WellFormed) : order.length = g.size := by
  have hperm : order.Perm g.identities := (List.perm_ext_iff_of_nodup h.nodup hg.nodup).2 h.mem_iff
  rw [hperm.length_eq, size_eq_length]

end Graph

/-! ## The verdict on a batch -/

namespace PassResult

/-- The calls of a pass with a result. -/
def calls : PassResult → List Call
  | noWork => []
  | emitted order => [.emit order]
  | cycle path => [.report (CycleViolation.mk path).toViolation]
  | invalid violations => violations.map fun v => .report v.toViolation

end PassResult

namespace Pipeline
open Declaration

/-- What a pass comes to where no emission fails. -/
def verdict (ds batch : List Declaration) : PassResult :=
  if newIn ds batch = [] then .noWork
  else if (newIn ds batch).filterMap violation? ≠ [] then
    .invalid ((newIn ds batch).filterMap violation?)
  else
    match (Builder.graphOf (ds ++ newIn ds batch)).outcome with
    | .ordered order => .emitted order
    | .cycle path => .cycle path

/-- The ways in which a verdict comes about, with the declarations that are accepted after it. -/
inductive Judged (ds batch : List Declaration) : PassResult → List Declaration → Prop where
  | noWork (hnone : newIn ds batch = []) : Judged ds batch .noWork ds
  | invalid (d : Declaration) (hd : d ∈ newIn ds batch) (hbroken : ¬ d.Valid) :
      Judged ds batch (.invalid ((newIn ds batch).filterMap violation?)) ds
  | emitted (order : List Identity) (hvalid : ∀ d ∈ newIn ds batch, d.Valid)
      (horder : (Builder.graphOf (ds ++ newIn ds batch)).outcome = .ordered order) :
      Judged ds batch (.emitted order) (ds ++ newIn ds batch)
  | cycle (path : List Identity) (hvalid : ∀ d ∈ newIn ds batch, d.Valid)
      (hcycle : (Builder.graphOf (ds ++ newIn ds batch)).outcome = .cycle path) :
      Judged ds batch (.cycle path) (ds ++ newIn ds batch)

theorem filterMap_violation?_eq_nil_iff (ds : List Declaration) :
    ds.filterMap violation? = [] ↔ ∀ d ∈ ds, d.Valid := by
  simp only [List.filterMap_eq_nil_iff, violation?_eq_none_iff]

theorem judged_verdict (ds batch : List Declaration) :
    Judged ds batch (verdict ds batch) (acceptedAfter ds (.pass batch)) := by
  unfold verdict
  rw [acceptedAfter]
  split
  · next hnone =>
    rw [if_pos (by simp [hnone]), hnone, List.append_nil]
    exact .noWork hnone
  split
  · next hinvalid =>
    rw [ne_eq, filterMap_violation?_eq_nil_iff] at hinvalid
    rw [if_neg hinvalid]
    obtain ⟨d, hd, hbroken⟩ : ∃ d ∈ newIn ds batch, ¬ d.Valid := by
      simpa only [not_forall, exists_prop] using hinvalid
    exact .invalid d hd hbroken
  · next hvalid =>
    rw [ne_eq, not_not, filterMap_violation?_eq_nil_iff] at hvalid
    rw [if_pos hvalid]
    split
    · next order horder => exact .emitted order hvalid horder
    · next path hcycle => exact .cycle path hvalid hcycle

/-! ## Passes come to their verdicts -/

section Passed
variable {σ : Type} {effects : Effects σ} {p p' : Pipeline} {ds batch : List Declaration}
  {result : Except Error PassResult} {calls : List Call}

theorem violations_standard (hp : p.builder.Holds ds) :
    violations .standard p batch = (newIn ds batch).filterMap violation? := by
  rw [violations, taken_eq_newIn hp]
  simp [Validator.checkAll, Rules.standard, Validator.declarations]

theorem graph_extended (hp : p.builder = Builder.empty.addAll ds)
    (hds : (ds.map (·.identity)).Nodup) :
    (p.extended batch).builder.graph = Builder.graphOf (ds ++ newIn ds batch) := by
  have hholds : p.builder.Holds ds := hp ▸ Builder.holds_addAll ds hds
  rw [extended, taken_eq_newIn hholds, hp, Builder.graphOf, Builder.addAll_append]

/-- A pass makes the calls of its verdict and comes to it, unless an emission fails. -/
theorem Passed.verdict (h : Passed .standard effects p batch result p' calls)
    (hp : p.builder = Builder.empty.addAll ds) (hds : (ds.map (·.identity)).Nodup) :
    calls = (Pipeline.verdict ds batch).calls ∧
      (result = .ok (Pipeline.verdict ds batch) ∨
        ∃ order e, Pipeline.verdict ds batch = .emitted order ∧ result = .error e) := by
  have hholds : p.builder.Holds ds := hp ▸ Builder.holds_addAll ds hds
  have htaken := taken_eq_newIn hholds batch
  have hviolations : violations .standard p batch = _ := violations_standard hholds
  have hgraph : (p.extended batch).builder.graph = _ := graph_extended hp hds
  have hstandard : ∀ g, (Rules.standard.order g).value = g.outcome := fun _ => rfl
  unfold Pipeline.verdict
  cases h with
  | noWork hnone =>
    rw [htaken] at hnone
    rw [if_pos hnone]
    exact ⟨rfl, Or.inl rfl⟩
  | invalid hsome hinvalid =>
    rw [htaken] at hsome
    rw [hviolations] at hinvalid ⊢
    rw [if_neg hsome, if_pos hinvalid]
    exact ⟨rfl, Or.inl rfl⟩
  | cycle path hsome hvalid hcycle =>
    rw [htaken] at hsome
    rw [hviolations] at hvalid
    rw [hstandard, hgraph] at hcycle
    rw [if_neg hsome, if_neg (not_not_intro hvalid), hcycle]
    exact ⟨rfl, Or.inl rfl⟩
  | emitted order summary world hsome hvalid horder hemit =>
    rw [htaken] at hsome
    rw [hviolations] at hvalid
    rw [hstandard, hgraph] at horder
    rw [if_neg hsome, if_neg (not_not_intro hvalid), horder]
    exact ⟨rfl, Or.inl rfl⟩
  | failed order e world hsome hvalid horder hemit =>
    rw [htaken] at hsome
    rw [hviolations] at hvalid
    rw [hstandard, hgraph] at horder
    rw [if_neg hsome, if_neg (not_not_intro hvalid), horder]
    exact ⟨rfl, Or.inr ⟨order, e, rfl, rfl⟩⟩

theorem Passed.builder_eq_addAll (h : Passed .standard effects p batch result p' calls)
    (hp : p.builder = Builder.empty.addAll ds) (hds : (ds.map (·.identity)).Nodup) :
    p'.builder = Builder.empty.addAll (acceptedAfter ds (.pass batch)) := by
  rw [← admittedAfter_standard]
  exact h.builder_eq_admitted hp hds

end Passed

/-! ## Verdicts on batches -/

/-- What passes over batches come to where no emission fails. -/
def verdicts : List Declaration → List (List Declaration) → List PassResult
  | _, [] => []
  | ds, batch :: batches =>
    verdict ds batch :: verdicts (acceptedAfter ds (.pass batch)) batches

/-- The declarations accepted once batches followed on declarations accepted before. -/
def acceptedFrom (ds : List Declaration) (batches : List (List Declaration)) : List Declaration :=
  (batches.map .pass).foldl acceptedAfter ds

@[simp] theorem acceptedFrom_nil (ds : List Declaration) : acceptedFrom ds [] = ds := rfl

@[simp] theorem acceptedFrom_cons (ds batch : List Declaration)
    (batches : List (List Declaration)) :
    acceptedFrom ds (batch :: batches) =
      acceptedFrom (acceptedAfter ds (.pass batch)) batches :=
  rfl

theorem acceptedFrom_append (ds : List Declaration) (batches more : List (List Declaration)) :
    acceptedFrom ds (batches ++ more) = acceptedFrom (acceptedFrom ds batches) more := by
  rw [acceptedFrom, List.map_append, List.foldl_append]
  rfl

theorem nodup_acceptedAfter {ds : List Declaration} (hds : (ds.map (·.identity)).Nodup)
    (batch : List Declaration) : ((acceptedAfter ds (.pass batch)).map (·.identity)).Nodup := by
  rw [← admittedAfter_standard]
  exact nodup_admittedAfter .standard hds (.pass batch)

theorem nodup_acceptedFrom {ds : List Declaration} (hds : (ds.map (·.identity)).Nodup)
    (batches : List (List Declaration)) :
    ((acceptedFrom ds batches).map (·.identity)).Nodup := by
  induction batches generalizing ds with
  | nil => exact hds
  | cons batch batches ih => exact ih (nodup_acceptedAfter hds batch)

theorem exists_acceptedAfter_eq (ds batch : List Declaration) :
    ∃ new, acceptedAfter ds (.pass batch) = ds ++ new := by
  rw [acceptedAfter]
  split
  · exact ⟨_, rfl⟩
  · exact ⟨[], (List.append_nil ds).symm⟩

/-- What was accepted stays in front of what is accepted later. -/
theorem exists_acceptedFrom_eq (ds : List Declaration) (batches : List (List Declaration)) :
    ∃ new, acceptedFrom ds batches = ds ++ new := by
  induction batches generalizing ds with
  | nil => exact ⟨[], (List.append_nil ds).symm⟩
  | cons batch batches ih =>
    obtain ⟨new, hnew⟩ := exists_acceptedAfter_eq ds batch
    obtain ⟨more, hmore⟩ := ih (acceptedAfter ds (.pass batch))
    refine ⟨new ++ more, ?_⟩
    rw [acceptedFrom_cons, hmore, hnew, List.append_assoc]

theorem verdicts_append (ds : List Declaration) (batches more : List (List Declaration)) :
    verdicts ds (batches ++ more) =
      verdicts ds batches ++ verdicts (acceptedFrom ds batches) more := by
  induction batches generalizing ds with
  | nil => rfl
  | cons batch batches ih =>
    rw [List.cons_append, verdicts, verdicts, ih, acceptedFrom_cons, List.cons_append]

@[simp] theorem length_verdicts (ds : List Declaration) (batches : List (List Declaration)) :
    (verdicts ds batches).length = batches.length := by
  induction batches generalizing ds with
  | nil => rfl
  | cons batch batches ih => rw [verdicts, List.length_cons, List.length_cons, ih]

/-! ## Verdicts and the last graph -/

section LastGraph
variable {ds : List Declaration} (hds : (ds.map (·.identity)).Nodup)
  (batches : List (List Declaration))
include hds

/-- A cycle that is found is one of every later graph. -/
theorem isCycle_of_mem_verdicts {path : List Identity} (h : .cycle path ∈ verdicts ds batches) :
    (Builder.graphOf (acceptedFrom ds batches)).IsCycle path := by
  induction batches generalizing ds with
  | nil => cases h
  | cons batch batches ih =>
    have hafter := nodup_acceptedAfter hds batch
    rw [verdicts, List.mem_cons] at h
    rcases h with hhead | htail
    · have hjudged := judged_verdict ds batch
      rw [← hhead] at hjudged
      -- the graph in which the cycle was found is a part of the last one
      have hfound : (Builder.graphOf (acceptedAfter ds (.pass batch))).IsCycle path := by
        generalize hnext : acceptedAfter ds (.pass batch) = next at hjudged hafter
        cases hjudged with
        | cycle _ _ hcycle =>
          exact Graph.isCycle_of_outcome (Builder.wellFormed_graphOf hafter) hcycle
      obtain ⟨more, hmore⟩ := exists_acceptedFrom_eq (acceptedAfter ds (.pass batch)) batches
      have hlast := nodup_acceptedFrom hafter batches
      rw [acceptedFrom_cons]
      rw [hmore] at hlast ⊢
      exact hfound.mono fun _ _ => Builder.dependsOn_graphOf_append hlast
    · exact ih hafter htail

/-- Without failures the last graph has no cycle, if the first one had none. -/
theorem acyclic_of_verdicts (hacyclic : (Builder.graphOf ds).Acyclic)
    (h : ∀ r ∈ verdicts ds batches, r.isFailure = false) :
    (Builder.graphOf (acceptedFrom ds batches)).Acyclic := by
  induction batches generalizing ds with
  | nil => exact hacyclic
  | cons batch batches ih =>
    have hafter := nodup_acceptedAfter hds batch
    have hhead : (verdict ds batch).isFailure = false := h _ List.mem_cons_self
    have hjudged := judged_verdict ds batch
    refine ih hafter ?_ fun r hr => h r (List.mem_cons_of_mem _ hr)
    generalize verdict ds batch = r at hhead hjudged
    generalize acceptedAfter ds (.pass batch) = next at hjudged hafter
    cases hjudged with
    | noWork => exact hacyclic
    | invalid => cases hhead
    | emitted order _ horder =>
      exact (Graph.orders_of_outcome (Builder.wellFormed_graphOf hafter) horder).acyclic
    | cycle => cases hhead

end LastGraph

/-- Batches among which one has a new declaration that is not valid. -/
def BreaksRule (ds : List Declaration) (batches : List (List Declaration)) : Prop :=
  ∃ before batch after, batches = before ++ batch :: after ∧
    ∃ d ∈ newIn (acceptedFrom ds before) batch, ¬ d.Valid

theorem breaksRule_cons_iff (ds batch : List Declaration) (batches : List (List Declaration)) :
    BreaksRule ds (batch :: batches) ↔
      (∃ d ∈ newIn ds batch, ¬ d.Valid) ∨
        BreaksRule (acceptedAfter ds (.pass batch)) batches := by
  constructor
  · rintro ⟨before, b, after, hsplit, hbroken⟩
    cases before with
    | nil =>
      obtain ⟨rfl, rfl⟩ := List.cons.inj hsplit
      exact Or.inl hbroken
    | cons first before =>
      obtain ⟨rfl, rfl⟩ := List.cons.inj hsplit
      exact Or.inr ⟨before, b, after, rfl, hbroken⟩
  · rintro (hbroken | ⟨before, b, after, rfl, hbroken⟩)
    · exact ⟨[], batch, batches, rfl, hbroken⟩
    · exact ⟨batch :: before, b, after, rfl, hbroken⟩

theorem breaksRule_iff (ds : List Declaration) (batches : List (List Declaration)) :
    BreaksRule ds batches ↔ ∃ vs, .invalid vs ∈ verdicts ds batches := by
  induction batches generalizing ds with
  | nil =>
    constructor
    · rintro ⟨before, b, after, hsplit, -⟩
      cases before <;> cases hsplit
    · rintro ⟨vs, hvs⟩
      cases hvs
  | cons batch batches ih =>
    have hhead : (∃ d ∈ newIn ds batch, ¬ d.Valid) ↔ ∃ vs, verdict ds batch = .invalid vs := by
      have hjudged := judged_verdict ds batch
      generalize verdict ds batch = r at hjudged
      generalize acceptedAfter ds (.pass batch) = next at hjudged
      cases hjudged with
      | noWork hnone => simp [hnone]
      | invalid d hd hbroken => exact ⟨fun _ => ⟨_, rfl⟩, fun _ => ⟨d, hd, hbroken⟩⟩
      | emitted _ hvalid =>
        simp only [reduceCtorEq, exists_false, iff_false]
        rintro ⟨d, hd, hbroken⟩
        exact hbroken (hvalid d hd)
      | cycle _ hvalid =>
        simp only [reduceCtorEq, exists_false, iff_false]
        rintro ⟨d, hd, hbroken⟩
        exact hbroken (hvalid d hd)
    simp only [breaksRule_cons_iff, hhead, ih, verdicts, List.mem_cons, exists_or, eq_comm]

/-- No verdict is a failure exactly when every new declaration is valid and the last graph has no
cycle. -/
theorem isFailure_verdicts_iff (batches : List (List Declaration)) :
    (∀ r ∈ verdicts [] batches, r.isFailure = false) ↔
      ¬ BreaksRule [] batches ∧ (Builder.graphOf (acceptedFrom [] batches)).Acyclic := by
  have hnil : (([] : List Declaration).map (·.identity)).Nodup := List.nodup_nil
  rw [breaksRule_iff]
  constructor
  · intro h
    refine ⟨?_, acyclic_of_verdicts hnil batches Builder.acyclic_graphOf_nil h⟩
    rintro ⟨vs, hvs⟩
    cases h _ hvs
  · rintro ⟨hvalid, hacyclic⟩ r hr
    cases r with
    | noWork => rfl
    | emitted order => rfl
    | invalid vs => exact absurd ⟨vs, hr⟩ hvalid
    | cycle path => exact absurd hacyclic (isCycle_of_mem_verdicts hnil batches hr).not_acyclic

end Pipeline

/-! ## Valid batches -/

namespace Declaration

theorem mem_of_mem_firsts {ds : List Declaration} {d : Declaration} (h : d ∈ firsts ds) :
    d ∈ ds := by
  induction ds with
  | nil => exact h
  | cons e ds ih =>
    rw [firsts, List.mem_cons] at h
    rcases h with rfl | h
    · exact List.mem_cons_self
    · exact List.mem_cons_of_mem _ (ih (List.mem_of_mem_filter h))

theorem mem_identities_firsts (ds : List Declaration) (a : Identity) :
    a ∈ (firsts ds).map (·.identity) ↔ a ∈ ds.map (·.identity) := by
  induction ds with
  | nil => rfl
  | cons d ds ih =>
    rw [firsts, List.map_cons, List.map_cons, List.mem_cons, List.mem_cons, ← ih]
    by_cases ha : a = d.identity
    · simp [ha]
    · simp only [ha, false_or, List.mem_map, List.mem_filter]
      constructor
      · rintro ⟨e, ⟨he, -⟩, rfl⟩
        exact ⟨e, he, rfl⟩
      · rintro ⟨e, he, rfl⟩
        exact ⟨e, ⟨he, by simpa using ha⟩, rfl⟩

theorem firsts_eq_nil_iff (ds : List Declaration) : firsts ds = [] ↔ ds = [] := by
  cases ds with
  | nil => exact Iff.rfl
  | cons d ds => exact iff_of_false (List.cons_ne_nil _ _) (List.cons_ne_nil _ _)

theorem firsts_append (ds es : List Declaration) :
    firsts (ds ++ es) =
      firsts ds ++ (firsts es).filter fun e => e.identity ∉ ds.map (·.identity) := by
  induction ds with
  | nil => simp [firsts]
  | cons d ds ih =>
    have hboth : (fun (e : Declaration) =>
        decide (e.identity ≠ d.identity) && decide (e.identity ∉ ds.map (·.identity))) =
        fun e => decide (e.identity ∉ (d :: ds).map (·.identity)) := by
      funext e
      simp only [List.map_cons, List.mem_cons, not_or, Bool.decide_and]
    rw [List.cons_append, firsts, firsts, ih, List.filter_append, List.filter_filter, hboth,
      List.cons_append]

theorem newIn_nil (ds : List Declaration) : newIn [] ds = firsts ds := by
  rw [newIn, List.filter_eq_self]
  simp

/-- What is new in two batches together is what is new in them one after the other. -/
theorem newIn_append (accepted ds es : List Declaration) :
    newIn accepted (ds ++ es) = newIn accepted ds ++ newIn (accepted ++ newIn accepted ds) es := by
  rw [newIn, firsts_append, List.filter_append, List.filter_filter]
  congr 1
  refine List.filter_congr fun e _ => ?_
  have hds := mem_identities_firsts ds e.identity
  rw [Bool.eq_iff_iff, Bool.and_eq_true, decide_eq_true_eq, decide_eq_true_eq, decide_eq_true_eq,
    ← hds, List.map_append, List.mem_append, not_or]
  refine and_congr_right fun hold => not_congr ?_
  simp only [newIn, List.mem_map, List.mem_filter, decide_eq_true_eq]
  constructor
  · rintro ⟨d, hd, hde⟩
    exact ⟨d, ⟨hd, by simpa [hde] using hold⟩, hde⟩
  · rintro ⟨d, ⟨hd, -⟩, hde⟩
    exact ⟨d, hd, hde⟩

end Declaration

namespace Pipeline
open Declaration

/-- Where all declarations are valid, all new ones are accepted. -/
theorem acceptedFrom_of_valid (ds : List Declaration) {batches : List (List Declaration)}
    (h : ∀ batch ∈ batches, ∀ d ∈ batch, d.Valid) :
    acceptedFrom ds batches = ds ++ newIn ds batches.flatten := by
  induction batches generalizing ds with
  | nil => simp [newIn, firsts]
  | cons batch batches ih =>
    have hvalid : ∀ d ∈ newIn ds batch, d.Valid := fun d hd =>
      h batch List.mem_cons_self d (mem_of_mem_firsts (List.mem_of_mem_filter hd))
    rw [acceptedFrom_cons, acceptedAfter, if_pos hvalid,
      ih _ fun b hb => h b (List.mem_cons_of_mem _ hb), List.flatten_cons, newIn_append,
      List.append_assoc]

theorem not_breaksRule_of_valid {ds : List Declaration} {batches : List (List Declaration)}
    (h : ∀ batch ∈ batches, ∀ d ∈ batch, d.Valid) : ¬ BreaksRule ds batches := by
  rintro ⟨before, batch, after, rfl, d, hd, hbroken⟩
  have hmem : batch ∈ before ++ batch :: after := List.mem_append_right _ List.mem_cons_self
  exact hbroken (h batch hmem d (mem_of_mem_firsts (List.mem_of_mem_filter hd)))

end Pipeline

end ComponentWiring
