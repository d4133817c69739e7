import ComponentWiring.Proofs.BuildReports

/-! # The passes of a build, one by one

A build is told from its single passes: each delivery and what the pass over it comes to, up to the
first delivery or emission that fails.

* `Build.Passes`: the passes over deliveries.
* `Build.exists_passes`: the passes over deliveries are there, whatever fails.
* `Build.Passes.results_prefix`: passes come to the verdicts on the batches.
* `Build.run_of_passes`: the report of the build that has the passes, or its error.
-/

namespace ComponentWiring.Build
set_option autoImplicit false

open Pipeline Happening

variable {σ : Type}

/-- The passes over deliveries from a pipeline and a world, with the number of the first one: the
batches that are delivered, the results of the passes, and the error that ends them, if any. -/
inductive Passes (effects : Effects σ) : Nat → List (Delivery σ) → Pipeline → σ →
    List Batch → List PassResult → Option Error → Prop where
  | done (number : Nat) (p : Pipeline) (world : σ) :
      Passes effects number [] p world [] [] none
  | undelivered {number : Nat} {delivery : Delivery σ} {deliveries : List (Delivery σ)}
      {p : Pipeline} {world : σ} {e : Error} (hdelivery : (delivery world).1 = .error e) :
      Passes effects number (delivery :: deliveries) p world [] [] (some e)
  | unemitted {number : Nat} {delivery : Delivery σ} {deliveries : List (Delivery σ)}
      {p p' : Pipeline} {world world' : σ} {batch : Batch} {order : List Identity}
      {e fault : Error} (hdelivery : (delivery world).1 = .ok batch)
      (hpass : p.pass .standard effects batch.declarations (delivery world).2 =
        (.error e, p', world'))
      (hleads : effects.Leads (delivery world).2 [.emission order (.error fault)] world') :
      Passes effects number (delivery :: deliveries) p world [batch] [] (some e)
  | passed {number : Nat} {delivery : Delivery σ} {deliveries : List (Delivery σ)}
      {p p' : Pipeline} {world world' : σ} {batch : Batch} {batches : List Batch} {r : PassResult}
      {results : List PassResult} {ending : Option Error} {hs : List Happening}
      (hdelivery : (delivery world).1 = .ok batch)
      (hpass : p.pass .standard effects batch.declarations (delivery world).2 =
        (.ok r, p', world'))
      (hleads : effects.Leads (delivery world).2 hs world') (hcalls : hs.filterMap call? = r.calls)
      (hok : ∀ x ∈ hs, ¬ x.Fails)
      (hrest : Passes effects (number + 1) deliveries p'
        (effects.log (passEvent (passOf number batch r) r) world') batches results ending) :
      Passes effects number (delivery :: deliveries) p world (batch :: batches) (r :: results)
        ending

section Passes
variable {effects : Effects σ} {number : Nat} {delivery : Delivery σ}
  {deliveries : List (Delivery σ)} {p : Pipeline} {world : σ} {ds : List Declaration}
  {batches : List Batch} {results : List PassResult} {ending : Option Error}

variable (effects) in
/-- A pass comes to its verdict and nothing fails in it, or its emission fails. -/
theorem pass_cases (hp : p.builder = Builder.empty.addAll ds) (hds : (ds.map (·.identity)).Nodup)
    (batch : List Declaration) (world : σ) :
    ∃ p' world', p'.builder = Builder.empty.addAll (acceptedAfter ds (.pass batch)) ∧
      ((∃ hs, p.pass .standard effects batch world = (.ok (verdict ds batch), p', world') ∧
          effects.Leads world hs world' ∧ hs.filterMap call? = (verdict ds batch).calls ∧
          ∀ x ∈ hs, ¬ x.Fails) ∨
        ∃ e order fault, p.pass .standard effects batch world = (.error e, p', world') ∧
          effects.Leads world [.emission order (.error fault)] world') := by
  obtain ⟨hs, hleads, hpassed, hfails⟩ := leads_pass .standard effects p batch world
  obtain ⟨hcalls, hresult⟩ := hpassed.verdict hp hds
  have hbuilder := hpassed.builder_eq_addAll hp hds
  generalize p.pass .standard effects batch world = passed at hleads hfails hresult hbuilder ⊢
  obtain ⟨answer, p', world'⟩ := passed
  refine ⟨p', world', hbuilder, ?_⟩
  rcases hresult with rfl | ⟨order, e, hverdict, rfl⟩
  · refine .inl ⟨hs, rfl, hleads, hcalls, fun x hmem hx => ?_⟩
    obtain ⟨e, he⟩ := hfails.2 ⟨x, hmem, hx⟩
    cases he
  · rw [hverdict] at hcalls
    obtain ⟨w, rfl, -, -⟩ := hleads.exists_emission hcalls
    obtain ⟨x, hmem, hx⟩ := hfails.1 ⟨e, rfl⟩
    rw [List.mem_singleton.1 hmem] at hx
    cases hemit : (effects.emit order w).1 with
    | ok summary =>
      rw [hemit] at hx
      cases hx
    | error fault =>
      rw [hemit] at hleads
      exact .inr ⟨e, order, fault, rfl, hleads⟩

variable (effects) in
theorem exists_passes (deliveries : List (Delivery σ)) (number : Nat)
    (hp : p.builder = Builder.empty.addAll ds) (hds : (ds.map (·.identity)).Nodup) (world : σ) :
    ∃ batches results ending, Passes effects number deliveries p world batches results ending := by
  induction deliveries generalizing number p ds world with
  | nil => exact ⟨[], [], none, .done number p world⟩
  | cons delivery deliveries ih =>
    cases hdelivery : (delivery world).1 with
    | error e => exact ⟨[], [], some e, .undelivered hdelivery⟩
    | ok batch =>
      obtain ⟨p', world', hbuilder, hend⟩ := pass_cases effects hp hds
        batch.declarations (delivery world).2
      rcases hend with ⟨hs, hpass, hleads, hcalls, hok⟩ | ⟨e, order, fault, hpass, hleads⟩
      · obtain ⟨batches, results, ending, hrest⟩ := ih (number + 1) hbuilder
          (nodup_acceptedAfter hds batch.declarations)
          (effects.log (passEvent (passOf number batch _) _) world')
        exact ⟨_, _, _, .passed hdelivery hpass hleads hcalls hok hrest⟩
      · exact ⟨_, _, _, .unemitted hdelivery hpass hleads⟩

/-- A pass that comes to a result comes to its verdict. -/
theorem verdict_of_pass (hp : p.builder = Builder.empty.addAll ds)
    (hds : (ds.map (·.identity)).Nodup) {batch : List Declaration} {r : PassResult}
    {p' : Pipeline} {world' : σ}
    (hpass : p.pass .standard effects batch world = (.ok r, p', world')) :
    p'.builder = Builder.empty.addAll (acceptedAfter ds (.pass batch)) ∧ r = verdict ds batch := by
  obtain ⟨p'', world'', hbuilder, ⟨hs, hverdict, -⟩ | ⟨e, order, fault, hfailed, -⟩⟩ :=
    pass_cases effects hp hds batch world
  · cases hpass.symm.trans hverdict
    exact ⟨hbuilder, rfl⟩
  · cases hpass.symm.trans hfailed

/-- The results of passes are the verdicts on the batches, except that there is none for a batch
whose emission fails. -/
theorem Passes.results_prefix
    (h : Passes effects number deliveries p world batches results ending)
    (hp : p.builder = Builder.empty.addAll ds) (hds : (ds.map (·.identity)).Nodup) :
    results <+: verdicts ds (batches.map (·.declarations)) := by
  induction h generalizing ds with
  | done => exact List.nil_prefix
  | undelivered => exact List.nil_prefix
  | unemitted => exact List.nil_prefix
  | passed _ hpass _ _ _ _ ih =>
    obtain ⟨hbuilder, rfl⟩ := verdict_of_pass hp hds hpass
    rw [List.map_cons, verdicts, List.prefix_cons_inj]
    exact ih hbuilder (nodup_acceptedAfter hds _)

/-- Where nothing fails, all deliveries are batches, and each of them has its result. -/
theorem Passes.length_eq (h : Passes effects number deliveries p world batches results ending)
    (hending : ending = none) :
    batches.length = deliveries.length ∧ results.length = batches.length := by
  induction h with
  | done => exact ⟨rfl, rfl⟩
  | undelivered => cases hending
  | unemitted => cases hending
  | passed _ _ _ _ _ _ ih =>
    obtain ⟨hbatches, hresults⟩ := ih hending
    exact ⟨congrArg (· + 1) hbatches, congrArg (· + 1) hresults⟩

theorem Passes.results_eq (h : Passes effects number deliveries p world batches results none)
    (hp : p.builder = Builder.empty.addAll ds) (hds : (ds.map (·.identity)).Nodup) :
    results = verdicts ds (batches.map (·.declarations)) := by
  refine (h.results_prefix hp hds).eq_of_length ?_
  rw [length_verdicts, List.length_map, (h.length_eq rfl).2]

/-- A cycle that a pass came to is one of the graph of all that was accepted in the end. -/
theorem Passes.isCycle (h : Passes effects number deliveries p world batches results ending)
    (hp : p.builder = Builder.empty.addAll ds) (hds : (ds.map (·.identity)).Nodup)
    {path : List Identity} (hmem : .cycle path ∈ results) :
    (Builder.graphOf (acceptedFrom ds (batches.map (·.declarations)))).IsCycle path :=
  isCycle_of_mem_verdicts hds _ ((h.results_prefix hp hds).subset hmem)

/-! ## The build that has the passes -/

/-- A build goes on over its passes, or ends with their error. -/
theorem Passes.runFrom_eq (h : Passes effects number deliveries p world batches results ending)
    (hp : p.builder = Builder.empty.addAll ds) (hds : (ds.map (·.identity)).Nodup)
    (progress : Progress) (hnumber : number = progress.passes.length + 1) :
    (runFrom .standard effects deliveries progress p world).1 =
      ending.elim (.ok ⟨progress.passes ++ passesFrom number ds batches,
        progress.violations ++ results.flatMap entriesOf⟩) .error := by
  induction h generalizing ds progress with
  | done => simp [runFrom, passesFrom]
  | @undelivered _ delivery _ _ world e hdelivery =>
    rw [runFrom]
    generalize delivery world = delivered at hdelivery ⊢
    obtain ⟨answer, w⟩ := delivered
    obtain rfl : answer = .error e := hdelivery
    rfl
  | @unemitted _ delivery _ _ _ world _ batch _ _ _ hdelivery hpass =>
    rw [runFrom]
    generalize delivery world = delivered at hdelivery hpass ⊢
    obtain ⟨answer, w⟩ := delivered
    obtain rfl : answer = .ok batch := hdelivery
    dsimp only
    rw [hpass]
    rfl
  | @passed _ delivery _ _ _ world _ batch batches r _ ending _ hdelivery hpass _ _ _ _ ih =>
    subst hnumber
    obtain ⟨hbuilder, rfl⟩ := verdict_of_pass hp hds hpass
    have hafter := nodup_acceptedAfter hds batch.declarations
    generalize hverdict : verdict ds batch.declarations = r at hpass ih ⊢
    have hrest := ih hbuilder hafter
      ⟨progress.passes ++ [passOf (progress.passes.length + 1) batch r],
        progress.violations ++ entriesOf r⟩ (by simp)
    rw [runFrom]
    generalize delivery world = delivered at hdelivery hpass ⊢
    obtain ⟨answer, w⟩ := delivered
    obtain rfl : answer = .ok batch := hdelivery
    dsimp only
    rw [hpass]
    dsimp only
    rw [hrest, passesFrom, hverdict, List.append_assoc, List.append_assoc, List.flatMap_cons,
      List.singleton_append]

/-- A build reports on the batches of its passes, or ends with their error. -/
theorem run_of_passes {timestamp : String}
    (h : Passes effects 1 deliveries fresh
      (effects.log ⟨.debug, "Pipeline reset", []⟩ world) batches results ending) :
    (run .standard effects timestamp deliveries p world).1 =
      ending.elim (.ok (summarized timestamp batches)) .error := by
  have hfresh : fresh.builder = Builder.empty.addAll [] := rfl
  have hrun := h.runFrom_eq hfresh List.nodup_nil ⟨[], []⟩ rfl
  unfold run reset
  dsimp only
  generalize runFrom .standard effects deliveries ⟨[], []⟩ fresh _ = out at hrun ⊢
  obtain ⟨answer, p', world'⟩ := out
  obtain rfl := hrun
  cases ending with
  | none =>
    obtain rfl := h.results_eq hfresh List.nodup_nil
    rfl
  | some e => rfl

end Passes

end ComponentWiring.Build
