import ComponentWiring.Proofs.Chronicle
import Mathlib.Algebra.GroupWithZero.Nat

/-! # What reports say

The report of a build counts what the sink was told and what the pipeline counted.

* `Build.map_passesFrom`: the summaries of passes say what the verdicts say.
* `Build.summarized`: the report on batches, told from the batches alone.
* `Build.passed_summarized_iff`: a report passes exactly if no verdict is a failure.
* `Report.Agrees`: a report that agrees with itself, with batches and with a pipeline.
* `Effects.collecting`: effects with a sink that keeps entries.
* `Build.run_collecting`: the report of a build agrees, and holds what the sink kept.
-/

namespace ComponentWiring
set_option autoImplicit false

/-! ## Verdicts and their violations -/

namespace Pipeline

theorem exists_verdict_of_mem {ds : List Declaration} {batches : List (List Declaration)}
    {r : PassResult} (h : r ∈ verdicts ds batches) : ∃ ds' batch, r = verdict ds' batch := by
  induction batches generalizing ds with
  | nil => cases h
  | cons batch batches ih =>
    rw [verdicts, List.mem_cons] at h
    rcases h with rfl | h
    · exact ⟨ds, batch, rfl⟩
    · exact ih h

theorem violations_verdict_eq_nil_iff (ds batch : List Declaration) :
    (verdict ds batch).violations = [] ↔ (verdict ds batch).isFailure = false := by
  have hjudged := judged_verdict ds batch
  generalize verdict ds batch = r at hjudged
  generalize acceptedAfter ds (.pass batch) = next at hjudged
  cases hjudged with
  | noWork => exact iff_of_true rfl rfl
  | emitted => exact iff_of_true rfl rfl
  | cycle => exact iff_of_false (List.cons_ne_nil _ _) Bool.noConfusion
  | invalid d hd hbroken =>
    refine iff_of_false ?_ Bool.noConfusion
    rw [PassResult.violations, List.map_eq_nil_iff, filterMap_violation?_eq_nil_iff]
    exact fun hvalid => hbroken (hvalid d hd)

theorem flatMap_violations_eq_nil_iff (ds : List Declaration) (batches : List (List Declaration)) :
    (verdicts ds batches).flatMap PassResult.violations = [] ↔
      ∀ r ∈ verdicts ds batches, r.isFailure = false := by
  rw [List.flatMap_eq_nil_iff]
  refine forall₂_congr fun r hr => ?_
  obtain ⟨ds', batch, rfl⟩ := exists_verdict_of_mem hr
  exact violations_verdict_eq_nil_iff ds' batch

end Pipeline

namespace PassResult

theorem severity_of_mem_violations {r : PassResult} {v : Violation} (h : v ∈ r.violations) :
    v.severity = .error := by
  cases r with
  | noWork => cases h
  | emitted order => cases h
  | cycle path =>
    rw [List.mem_singleton.1 h]
    rfl
  | invalid vs =>
    obtain ⟨d, -, rfl⟩ := List.mem_map.1 h
    rfl

/-- Only a cycle is a structural violation, and it is one alone. -/
theorem countP_structural (r : PassResult) :
    r.violations.countP (·.category = .structural) = countNamed "cycle" [r] := by
  cases r with
  | noWork => rfl
  | emitted order => rfl
  | cycle path => rfl
  | invalid vs =>
    have hzero : vs.countP (fun v => decide (v.toViolation.category = .structural)) = 0 := by
      rw [List.countP_eq_zero]
      intro v _
      simp [DeclarationViolation.toViolation]
    rw [violations, List.countP_map]
    exact hzero

theorem countP_structural_flatMap (rs : List PassResult) :
    (rs.flatMap violations).countP (·.category = .structural) = countNamed "cycle" rs := by
  induction rs with
  | nil => rfl
  | cons r rs ih =>
    rw [List.flatMap_cons, List.countP_append, countP_structural, ih, ← countNamed_cons]

end PassResult

/-! ## Summaries of passes -/

namespace Build
open Pipeline

variable {α : Type} (n : Nat) (ds : List Declaration) (batches : List Batch)

theorem length_passesFrom : (passesFrom n ds batches).length = batches.length := by
  induction batches generalizing n ds with
  | nil => rfl
  | cons batch batches ih => rw [passesFrom, List.length_cons, List.length_cons, ih]

theorem passesFrom_concat (batch : Batch) :
    passesFrom n ds (batches ++ [batch]) = passesFrom n ds batches ++
      [passOf (n + batches.length) batch
        (verdict (acceptedFrom ds (batches.map (·.declarations))) batch.declarations)] := by
  induction batches generalizing n ds with
  | nil => rfl
  | cons first batches ih =>
    have hnumber : n + (first :: batches).length = n + 1 + batches.length := by
      rw [List.length_cons]
      omega
    rw [List.cons_append, passesFrom, passesFrom, ih, hnumber, List.map_cons, acceptedFrom_cons,
      List.cons_append]

/-- Every batch has its summary, in order and numbered. -/
theorem map_delivered_passesFrom :
    (passesFrom n ds batches).map (fun s => (s.pass, s.source, s.declarations)) =
      batches.mapIdx fun i batch => (n + i, batch.source, batch.declarations.length) := by
  induction batches generalizing n ds with
  | nil => rfl
  | cons batch batches ih =>
    have hshift : (fun (i : Nat) (batch : Batch) =>
        (n + 1 + i, batch.source, batch.declarations.length)) =
        fun i batch => (n + (i + 1), batch.source, batch.declarations.length) := by
      funext i batch
      rw [Nat.add_assoc, Nat.add_comm 1 i]
    rw [passesFrom, List.map_cons, ih, hshift, List.mapIdx_cons]
    rfl

/-- What a summary says of a pass result alone, the summaries of passes say of the verdicts. -/
theorem map_passesFrom {f : Report.Pass → α} {g : PassResult → α}
    (hfg : ∀ number batch r, f (passOf number batch r) = g r) :
    (passesFrom n ds batches).map f = (verdicts ds (batches.map (·.declarations))).map g := by
  induction batches generalizing n ds with
  | nil => rfl
  | cons batch batches ih =>
    rw [passesFrom, List.map_cons, hfg, ih, List.map_cons, verdicts, List.map_cons]

theorem countP_outcome_passesFrom (name : String) :
    (passesFrom n ds batches).countP (·.outcome = name) =
      PassResult.countNamed name (verdicts ds (batches.map (·.declarations))) := by
  have houtcomes := map_passesFrom n ds batches (f := (·.outcome)) (g := PassResult.name)
    fun _ _ _ => rfl
  have hcount := congrArg (List.countP fun o => decide (o = name)) houtcomes
  rw [List.countP_map, List.countP_map] at hcount
  exact hcount

theorem violationCount_passOf (number : Nat) (batch : Batch) (r : PassResult) :
    (passOf number batch r).violationCount = r.violations.length := by
  cases r with
  | noWork => rfl
  | emitted order => rfl
  | cycle path => rfl
  | invalid vs => exact (List.length_map _).symm

theorem sum_violationCount_passesFrom :
    ((passesFrom n ds batches).map (·.violationCount)).sum =
      ((verdicts ds (batches.map (·.declarations))).flatMap PassResult.violations).length := by
  rw [map_passesFrom n ds batches violationCount_passOf, List.length_flatMap]

end Build

/-! ## The last order -/

theorem Report.lastOrdered_concat (passes : List Report.Pass) (s : Report.Pass) :
    Report.lastOrdered (passes ++ [s]) =
      if s.outcome = Report.emittedName then s.identities.length
      else Report.lastOrdered passes := by
  unfold Report.lastOrdered
  rw [List.reverse_concat, List.find?_cons]
  by_cases hs : s.outcome = Report.emittedName
  · simp [hs]
  · simp [hs]

namespace Build
open Pipeline

/-- Without failures the last order has all components of the last graph. -/
theorem lastOrdered_passesFrom (batches : List Batch)
    (h : ∀ r ∈ verdicts [] (batches.map (·.declarations)), r.isFailure = false) :
    Report.lastOrdered (passesFrom 1 [] batches) =
      (Builder.graphOf (acceptedFrom [] (batches.map (·.declarations)))).size := by
  induction batches using List.reverseRecOn with
  | nil => rfl
  | append_singleton batches batch ih =>
    rw [List.map_append, List.map_singleton, verdicts_append] at h
    have hprevious := ih fun r hr => h r (List.mem_append_left _ hr)
    have hnil : (([] : List Declaration).map (·.identity)).Nodup := List.nodup_nil
    have hnodup := nodup_acceptedFrom hnil (batches.map (·.declarations))
    rw [passesFrom_concat, Report.lastOrdered_concat, hprevious, List.map_append,
      List.map_singleton, acceptedFrom_append]
    generalize acceptedFrom [] (batches.map (·.declarations)) = ds at h hnodup ⊢
    have hlast : (verdict ds batch.declarations).isFailure = false :=
      h _ (List.mem_append_right _ (List.mem_singleton_self _))
    have hafter := nodup_acceptedAfter hnodup batch.declarations
    have hjudged := judged_verdict ds batch.declarations
    rw [acceptedFrom_cons, acceptedFrom_nil]
    generalize verdict ds batch.declarations = r at hlast hjudged ⊢
    generalize acceptedAfter ds (.pass batch.declarations) = next at hjudged hafter ⊢
    cases hjudged with
    | noWork => rfl
    | invalid => cases hlast
    | cycle => cases hlast
    | emitted order _ horder =>
      have hwell := Builder.wellFormed_graphOf hafter
      have horders := Graph.orders_of_outcome hwell horder
      exact (List.length_map _).trans (horders.length_eq hwell)

end Build

/-! ## Reports on batches -/

theorem Report.countOf_declaration_add_countOf_structural (entries : List Report.Entry) :
    Report.countOf .declaration entries + Report.countOf .structural entries = entries.length := by
  rw [Report.countOf, Report.countOf,
    entries.length_eq_countP_add_countP (·.category = .declaration)]
  congr 1
  apply List.countP_congr
  intro entry _
  cases entry.category with
  | declaration => simp
  | structural => simp

/-- A report that agrees with itself, with the batches that were delivered and with the pipeline. -/
structure Report.Agrees (report : Report) (batches : List Batch) (p : Pipeline) : Prop where
  passes : report.passes.map (fun s => (s.pass, s.source, s.declarations)) =
    batches.mapIdx fun i batch => (i + 1, batch.source, batch.declarations.length)
  totalViolations : report.summary.totalViolations = (report.passes.map (·.violationCount)).sum
  categories : report.summary.totalViolations =
    report.summary.declarationCount + report.summary.cycleCount
  totalPasses : report.summary.totalPasses = p.counters.passes
  emittedPasses : report.summary.emittedPasses = p.counters.emissions
  cycleCount : report.summary.cycleCount = p.counters.cycles
  invalidPasses : report.passes.countP (·.outcome = "invalid") = p.counters.invalidPasses
  passed : report.summary.passed = true ↔ report.violations = []
  componentsOrdered : report.summary.passed = true →
    report.summary.componentsOrdered = p.builder.graph.size

namespace Build
open Pipeline Happening

/-- The report on batches, told from the batches alone. -/
def summarized (timestamp : String) (batches : List Batch) : Report :=
  Report.of timestamp (passesFrom 1 [] batches)
    ((verdicts [] (batches.map (·.declarations))).flatMap entriesOf)

section Summarized
variable (timestamp : String) (batches : List Batch)

theorem violations_summarized :
    (summarized timestamp batches).violations =
      ((verdicts [] (batches.map (·.declarations))).flatMap PassResult.violations).map
        Report.Entry.of := by
  rw [List.map_flatMap]
  exact List.flatMap_congr fun r _ => r.entriesOf_eq

theorem severity_of_mem_summarized {entry : Report.Entry}
    (h : entry ∈ (summarized timestamp batches).violations) : entry.severity = .error := by
  rw [violations_summarized, List.mem_map] at h
  obtain ⟨v, hv, rfl⟩ := h
  obtain ⟨r, -, hr⟩ := List.mem_flatMap.1 hv
  exact PassResult.severity_of_mem_violations hr

theorem passed_iff_violations_eq_nil :
    (summarized timestamp batches).summary.passed = true ↔
      (summarized timestamp batches).violations = [] := by
  have hpassed : (summarized timestamp batches).summary.passed =
      !(summarized timestamp batches).violations.any (·.severity = .error) := rfl
  rw [hpassed]
  cases hentries : (summarized timestamp batches).violations with
  | nil => simp
  | cons entry entries =>
    have hmem : entry ∈ (summarized timestamp batches).violations := by
      rw [hentries]
      exact List.mem_cons_self
    have hsevere : entry.severity = .error := severity_of_mem_summarized timestamp batches hmem
    simp [hsevere]

/-- A report passes exactly if no verdict is a failure. -/
theorem passed_summarized_iff :
    (summarized timestamp batches).summary.passed = true ↔
      ∀ r ∈ verdicts [] (batches.map (·.declarations)), r.isFailure = false := by
  rw [passed_iff_violations_eq_nil, violations_summarized, List.map_eq_nil_iff,
    flatMap_violations_eq_nil_iff]

/-- The report on batches agrees with a pipeline that counted their verdicts. -/
theorem agrees_summarized {p : Pipeline}
    (hbuilder : p.builder =
      Builder.empty.addAll (acceptedFrom [] (batches.map (·.declarations))))
    (hcounters : Counters.zero.Tallies (verdicts [] (batches.map (·.declarations))) p.counters) :
    (summarized timestamp batches).Agrees batches p where
  passes := by
    have hdelivered := map_delivered_passesFrom 1 [] batches
    simp only [Nat.add_comm 1] at hdelivered
    exact hdelivered
  totalViolations := by
    have hlength := congrArg List.length (violations_summarized timestamp batches)
    rw [List.length_map, ← sum_violationCount_passesFrom 1] at hlength
    exact hlength
  categories := (Report.countOf_declaration_add_countOf_structural _).symm
  totalPasses := by
    rw [hcounters.passes, length_verdicts, List.length_map]
    exact (length_passesFrom 1 [] batches).trans (Nat.zero_add _).symm
  emittedPasses := by
    rw [hcounters.emissions]
    exact (countP_outcome_passesFrom 1 [] batches _).trans (Nat.zero_add _).symm
  cycleCount := by
    have hcount : (summarized timestamp batches).summary.cycleCount =
        (summarized timestamp batches).violations.countP (·.category = .structural) := rfl
    rw [hcounters.cycles, hcount, violations_summarized, List.countP_map]
    exact (PassResult.countP_structural_flatMap _).trans (Nat.zero_add _).symm
  invalidPasses := by
    rw [hcounters.invalidPasses]
    exact (countP_outcome_passesFrom 1 [] batches _).trans (Nat.zero_add _).symm
  passed := passed_iff_violations_eq_nil timestamp batches
  componentsOrdered := by
    intro hpassed
    rw [hbuilder]
    exact lastOrdered_passesFrom batches ((passed_summarized_iff timestamp batches).1 hpassed)

end Summarized

end Build

/-! ## Sinks that keep entries -/

section Collecting
variable {σ : Type}

/-- The effects, with a sink that keeps an entry of every violation. -/
def Effects.collecting (effects : Effects σ) : Effects (σ × List Report.Entry) where
  emit order world :=
    ((effects.emit order world.1).1, (effects.emit order world.1).2, world.2)
  report violation world :=
    (effects.report violation world.1, world.2 ++ [Report.Entry.of violation])
  log event world := (effects.log event world.1, world.2)

/-- A delivery beside a sink. -/
def Delivery.collecting (delivery : Delivery σ) : Delivery (σ × List Report.Entry) := fun world =>
  ((delivery world.1).1, (delivery world.1).2, world.2)

/-- The world and what a sink keeps, told from what is written down. -/
def Happening.collected (kept : List Report.Entry) (world : σ × List Happening) :
    σ × List Report.Entry :=
  (world.1, kept ++ (Happening.reported world.2).map Report.Entry.of)

theorem Effects.shadows_collecting (effects : Effects σ) (kept : List Report.Entry) :
    effects.noting.Shadows effects.collecting (Happening.collected kept) where
  emit order world := by
    simp [collecting, noting, Happening.collected, Happening.reported, Happening.violation?]
  report violation world := by
    simp [collecting, noting, Happening.collected, Happening.reported, Happening.violation?]
  log event world := rfl

theorem Delivery.shadows_collecting (delivery : Delivery σ) (kept : List Report.Entry)
    (world : σ × List Happening) :
    delivery.collecting (Happening.collected kept world) =
      ((delivery.noting world).1, Happening.collected kept (delivery.noting world).2) := by
  simp [collecting, noting, Happening.collected, Happening.reported, Happening.violation?]

namespace Build
open Pipeline Happening

variable (effects : Effects σ) (timestamp : String) (deliveries : List (Delivery σ)) (p : Pipeline)
  (world : σ)

/-- A build where nothing fails reports on the batches that were delivered. -/
theorem run_of_not_fails
    (h : ∀ x ∈ chronicle .standard effects timestamp deliveries p world, ¬ x.Fails) :
    (run .standard effects timestamp deliveries p world).1 =
      .ok (summarized timestamp
        (batches (chronicle .standard effects timestamp deliveries p world))) :=
  ((told_run effects timestamp deliveries p world).completed h).2.2

/-- A build beside a sink, told from the build and its chronicle. -/
theorem run_collecting_eq (kept : List Report.Entry) :
    run .standard effects.collecting timestamp (deliveries.map Delivery.collecting) p
        (world, kept) =
      ((run .standard effects timestamp deliveries p world).1,
        (run .standard effects timestamp deliveries p world).2.1,
        (run .standard effects timestamp deliveries p world).2.2,
        kept ++ (reported (chronicle .standard effects timestamp deliveries p world)).map
          Report.Entry.of) := by
  have hdeliveries : List.Forall₂
      (fun (l : Delivery (σ × List Happening)) (d : Delivery (σ × List Report.Entry)) =>
        ∀ w, d (collected kept w) = ((l w).1, collected kept (l w).2))
      (deliveries.map Delivery.noting) (deliveries.map Delivery.collecting) := by
    rw [List.forall₂_map_left_iff, List.forall₂_map_right_iff]
    exact List.forall₂_same.2 fun d _ w => d.shadows_collecting kept w
  have hshadows := run_shadows (effects.shadows_collecting kept) hdeliveries .standard timestamp p
    (world, [])
  have hstart : collected kept (world, []) = (world, kept) :=
    congrArg (Prod.mk world) (List.append_nil kept)
  rw [hstart] at hshadows
  rw [hshadows, run_noting .standard effects timestamp deliveries p (world, []), chronicle]
  rfl

/-- Where nothing fails, whatever was built before: the report agrees with itself, with the batches
and with the pipeline, it holds what a sink kept during the build, and apart from the time stamp
every build in which the same batches are delivered has the same report. -/
theorem run_collecting (kept : List Report.Entry)
    (h : ∀ x ∈ chronicle .standard effects timestamp deliveries p world, ¬ x.Fails) :
    ∃ report p' world',
      run .standard effects.collecting timestamp (deliveries.map Delivery.collecting) p
          (world, kept) = (.ok report, p', world', kept ++ report.violations) ∧
      (batches (chronicle .standard effects timestamp deliveries p world)).length =
        deliveries.length ∧
      report.Agrees (batches (chronicle .standard effects timestamp deliveries p world)) p' ∧
      report.timestamp = timestamp ∧
      ∀ (τ : Type) (effects' : Effects τ) (timestamp' : String) (deliveries' : List (Delivery τ))
        (q : Pipeline) (w : τ),
        (∀ x ∈ chronicle .standard effects' timestamp' deliveries' q w, ¬ x.Fails) →
        batches (chronicle .standard effects' timestamp' deliveries' q w) =
          batches (chronicle .standard effects timestamp deliveries p world) →
        (run .standard effects' timestamp' deliveries' q w).1 =
          .ok { report with timestamp := timestamp' } := by
  have htold := told_run effects timestamp deliveries p world
  obtain ⟨hlength, htallies, -⟩ := htold.completed h
  refine ⟨summarized timestamp (batches (chronicle .standard effects timestamp deliveries p world)),
    (run .standard effects timestamp deliveries p world).2.1,
    (run .standard effects timestamp deliveries p world).2.2,
    ?_, hlength, agrees_summarized timestamp _ htold.builder htallies, rfl, ?_⟩
  · rw [run_collecting_eq, run_of_not_fails effects timestamp deliveries p world h, htold.reports,
      violations_summarized]
    rfl
  · intro τ effects' timestamp' deliveries' q w h' hsame
    rw [run_of_not_fails effects' timestamp' deliveries' q w h', hsame]
    rfl

end Build

end Collecting

namespace Build.Sample
open Pipeline Pipeline.Sample Happening

/-- Two batches, where the second one closes a cycle. -/
def deliveries : List (Delivery Unit) :=
  [fun _ => (.ok ⟨some "a.toml", [appOnStore]⟩, ()), fun _ => (.ok ⟨none, [storeOnApp]⟩, ())]

theorem run_collecting_of_two :
    (∀ x ∈ chronicle .standard writing "now" deliveries fresh (), ¬ x.Fails) ∧
      ∃ report p' world',
        run .standard writing.collecting "now" (deliveries.map Delivery.collecting) fresh ((), []) =
          (.ok report, p', world', report.violations) ∧
        report.summary.cycleCount = p'.counters.cycles := by
  have hdeliveries : ∀ delivery ∈ deliveries, ∀ w, ∃ batch, (delivery w).1 = .ok batch := by
    simp [deliveries]
  have h := chronicle_not_fails .standard writing "now" fresh () hdeliveries
    fun order w => ⟨_, rfl⟩
  obtain ⟨report, p', world', hrun, -, hagrees, -⟩ :=
    run_collecting writing "now" deliveries fresh () [] h
  exact ⟨h, report, p', world', hrun, hagrees.cycleCount⟩

end Build.Sample

end ComponentWiring
