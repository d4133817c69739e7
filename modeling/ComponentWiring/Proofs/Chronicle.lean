import ComponentWiring.Proofs.Happenings
import ComponentWiring.Proofs.Verdicts

/-! # Chronicles of builds

What a build comes to is told from what happens in it.

* `Delivery.noting`, `Build.chronicle`: what happens in a build, written down as it comes.
* `Build.run_noting`: a build is the same whether happenings are written down or not.
* `Build.chronicle_not_fails`: where every delivery and every emission succeeds, nothing fails.
* `Build.passesFrom`: the summaries of passes, told from the batches.
* `Build.told_runFrom`: what a build comes to, told from its chronicle.
-/

namespace ComponentWiring
set_option autoImplicit false

/-! ## Builds -/

/-- A delivery that is written down. -/
def Delivery.noting {σ : Type} (delivery : Delivery σ) : Delivery (σ × List Happening) :=
  fun world =>
  ((delivery world.1).1, (delivery world.1).2, world.2 ++ [.delivery (delivery world.1).1])

namespace Build

/-- What happens in a build. -/
def chronicle {σ : Type} (rules : Rules) (effects : Effects σ) (timestamp : String)
    (deliveries : List (Delivery σ)) (p : Pipeline) (world : σ) : List Happening :=
  (run rules effects.noting timestamp (deliveries.map Delivery.noting) p (world, [])).2.2.2

section Shadows
variable {σ τ : Type} {large : Effects τ} {small : Effects σ} {part : τ → σ}
  (h : large.Shadows small part) {larges : List (Delivery τ)} {smalls : List (Delivery σ)}
  (hd : List.Forall₂
    (fun (l : Delivery τ) (d : Delivery σ) => ∀ w, d (part w) = ((l w).1, part (l w).2))
    larges smalls)
  (rules : Rules)
include h hd

theorem runFrom_shadows (progress : Progress) (p : Pipeline) (w : τ) :
    runFrom rules small smalls progress p (part w) =
      ((runFrom rules large larges progress p w).1, (runFrom rules large larges progress p w).2.1,
        part (runFrom rules large larges progress p w).2.2) := by
  induction hd generalizing progress p w with
  | nil => rfl
  | @cons l d larges smalls hhead _ ih =>
    rw [runFrom, runFrom, hhead]
    rcases l w with ⟨e | batch, w'⟩
    · rfl
    dsimp only
    rw [h.pass]
    rcases Pipeline.pass rules large batch.declarations p w' with ⟨e | result, p', w''⟩
    · rfl
    · dsimp only
      rw [h.log, ih]

/-- A build on a part of the world is the part of the build. -/
theorem run_shadows (timestamp : String) (p : Pipeline) (w : τ) :
    run rules small timestamp smalls p (part w) =
      ((run rules large timestamp larges p w).1, (run rules large timestamp larges p w).2.1,
        part (run rules large timestamp larges p w).2.2) := by
  unfold run Pipeline.reset
  dsimp only
  rw [h.log, runFrom_shadows h hd]
  rcases runFrom rules large larges _ _ _ with ⟨e | progress, p', w'⟩
  · rfl
  · dsimp only
    rw [h.log]

end Shadows

/-- What is written down changes neither the report nor the pipeline nor the world. -/
theorem run_noting {σ : Type} (rules : Rules) (effects : Effects σ) (timestamp : String)
    (deliveries : List (Delivery σ)) (p : Pipeline) (world : σ × List Happening) :
    run rules effects timestamp deliveries p world.1 =
      ((run rules effects.noting timestamp (deliveries.map Delivery.noting) p world).1,
        (run rules effects.noting timestamp (deliveries.map Delivery.noting) p world).2.1,
        (run rules effects.noting timestamp (deliveries.map Delivery.noting) p world).2.2.1) := by
  refine run_shadows effects.shadows_noting ?_ rules timestamp p world
  rw [List.forall₂_map_left_iff]
  exact List.forall₂_same.2 fun _ _ _ => rfl

section Chronicle
variable {σ : Type} (rules : Rules) (effects : Effects σ) (timestamp : String)
  {deliveries : List (Delivery σ)} (p : Pipeline) (world : σ)

/-- All that happens in a build happens in its passes. -/
theorem chronicle_eq :
    chronicle rules effects timestamp deliveries p world =
      (runFrom rules effects.noting (deliveries.map Delivery.noting) ⟨[], []⟩ Pipeline.fresh
        (effects.noting.log ⟨.debug, "Pipeline reset", []⟩ (world, []))).2.2.2 := by
  unfold chronicle run Pipeline.reset
  dsimp only
  generalize runFrom rules effects.noting _ _ _ _ = out
  obtain ⟨result, p', w⟩ := out
  cases result with
  | error e => rfl
  | ok progress => rfl

variable (hdeliveries : ∀ delivery ∈ deliveries, ∀ w, ∃ batch, (delivery w).1 = .ok batch)
  (hemit : ∀ order w, ∃ summary, (effects.emit order w).1 = .ok summary)
include hdeliveries hemit

theorem runFrom_not_fails (progress : Progress) (world : σ × List Happening)
    (hworld : ∀ x ∈ world.2, ¬ x.Fails) :
    ∀ x ∈ (runFrom rules effects.noting (deliveries.map Delivery.noting) progress p world).2.2.2,
      ¬ x.Fails := by
  induction deliveries generalizing progress p world with
  | nil => exact hworld
  | cons delivery deliveries ih =>
    obtain ⟨hhead, hrest⟩ := List.forall_mem_cons.1 hdeliveries
    obtain ⟨batch, hbatch⟩ := hhead world.1
    rw [List.map_cons, runFrom, Delivery.noting, hbatch]
    dsimp only
    have hdelivered : ∀ x ∈ world.2 ++ [.delivery (.ok batch)], ¬ x.Fails := by
      rw [List.forall_mem_append, List.forall_mem_singleton]
      exact ⟨hworld, id⟩
    obtain ⟨hs, hleads, -⟩ := Pipeline.leads_pass rules effects.noting p batch.declarations
      ((delivery world.1).2, world.2 ++ [.delivery (.ok batch)])
    have hnotes := hleads.noted
    have hpassed := (effects.shadows_noting.leads hleads).not_fails hemit
    generalize Pipeline.pass rules effects.noting batch.declarations p _ = passed at hnotes ⊢
    obtain ⟨answer, p', w⟩ := passed
    have hall : ∀ x ∈ w.2, ¬ x.Fails := by
      rw [show w.2 = _ from hnotes, List.forall_mem_append]
      exact ⟨hdelivered, hpassed⟩
    cases answer with
    | error e => exact hall
    | ok r => exact ih _ hrest _ _ hall

/-- Where every delivery and every emission succeeds, nothing fails. -/
theorem chronicle_not_fails :
    ∀ x ∈ chronicle rules effects timestamp deliveries p world, ¬ x.Fails := by
  rw [chronicle_eq]
  exact runFrom_not_fails rules effects _ hdeliveries hemit _ _ fun _ hmem => by cases hmem

end Chronicle

end Build

/-! ## What a build comes to -/

namespace PassResult

/-- The violations that a result stands for. -/
def violations : PassResult → List Violation
  | noWork => []
  | emitted _ => []
  | cycle path => [(CycleViolation.mk path).toViolation]
  | invalid violations => violations.map (·.toViolation)

theorem reported_of_calls {hs : List Happening} {r : PassResult}
    (h : hs.filterMap Happening.call? = r.calls) : Happening.reported hs = r.violations := by
  rw [Happening.reported_eq_of_calls h]
  cases r with
  | noWork => rfl
  | emitted order => rfl
  | cycle path => rfl
  | invalid vs => simp [calls, violations, List.filterMap_map]

theorem entriesOf_eq (r : PassResult) : Build.entriesOf r = r.violations.map Report.Entry.of := by
  cases r with
  | noWork => rfl
  | emitted order => rfl
  | cycle path => rfl
  | invalid vs => simp [Build.entriesOf, violations, Function.comp_def]

/-- How many results have a name. -/
def countNamed (name : String) (rs : List PassResult) : Nat := rs.countP (·.name = name)

theorem countNamed_cons (name : String) (r : PassResult) (rs : List PassResult) :
    countNamed name (r :: rs) = countNamed name [r] + countNamed name rs := by
  rw [countNamed, countNamed, countNamed, ← List.countP_append, List.singleton_append]

end PassResult

/-- Counters after passes with results. -/
structure Counters.Tallies (c : Counters) (rs : List PassResult) (c' : Counters) : Prop where
  passes : c'.passes = c.passes + rs.length
  emissions : c'.emissions = c.emissions + PassResult.countNamed "emitted" rs
  cycles : c'.cycles = c.cycles + PassResult.countNamed "cycle" rs
  invalidPasses : c'.invalidPasses = c.invalidPasses + PassResult.countNamed "invalid" rs

theorem Counters.tallies_nil (c : Counters) : c.Tallies [] c := ⟨rfl, rfl, rfl, rfl⟩

theorem Counters.Tallies.cons {c c' c'' : Counters} {r : PassResult} {rs : List PassResult}
    (hr : c.Tallies [r] c') (hrs : c'.Tallies rs c'') : c.Tallies (r :: rs) c'' where
  passes := by
    have hhead : c'.passes = c.passes + 1 := hr.passes
    rw [hrs.passes, hhead, List.length_cons]
    omega
  emissions := by
    rw [hrs.emissions, hr.emissions, PassResult.countNamed_cons _ r rs, Nat.add_assoc]
  cycles := by
    rw [hrs.cycles, hr.cycles, PassResult.countNamed_cons _ r rs, Nat.add_assoc]
  invalidPasses := by
    rw [hrs.invalidPasses, hr.invalidPasses, PassResult.countNamed_cons _ r rs, Nat.add_assoc]

theorem Pipeline.Passed.tallies {σ : Type} {rules : Rules} {effects : Effects σ} {p p' : Pipeline}
    {batch : List Declaration} {r : PassResult} {calls : List Call}
    (h : Passed rules effects p batch (.ok r) p' calls) : p.counters.Tallies [r] p'.counters := by
  cases h with
  | noWork => exact ⟨rfl, rfl, rfl, rfl⟩
  | invalid => exact ⟨rfl, rfl, rfl, rfl⟩
  | cycle => exact ⟨rfl, rfl, rfl, rfl⟩
  | emitted => exact ⟨rfl, rfl, rfl, rfl⟩

namespace Build
open Pipeline Happening

/-- The lists of declarations that were delivered. -/
def delivered (hs : List Happening) : List (List Declaration) := (batches hs).map (·.declarations)

/-- The summaries of passes over batches, the first with a given number. -/
def passesFrom : Nat → List Declaration → List Batch → List Report.Pass
  | _, _, [] => []
  | number, ds, batch :: batches =>
    passOf number batch (verdict ds batch.declarations) ::
      passesFrom (number + 1) (acceptedAfter ds (.pass batch.declarations)) batches

/-- What a build comes to, told from what happened in it, the declarations accepted before and the
progress made before. -/
structure Told (ds : List Declaration) (progress : Progress) (c : Counters) (deliveries : Nat)
    (hs : List Happening) (result : Except Error Progress) (p : Pipeline) : Prop where
  builder : p.builder = Builder.empty.addAll (acceptedFrom ds (delivered hs))
  reports : reported hs = (verdicts ds (delivered hs)).flatMap PassResult.violations
  failed : (∃ h ∈ hs, h.Fails) → ∃ e, result = .error e
  completed : (∀ h ∈ hs, ¬ h.Fails) →
    (batches hs).length = deliveries ∧
    c.Tallies (verdicts ds (delivered hs)) p.counters ∧
    result = .ok
      ⟨progress.passes ++ passesFrom (progress.passes.length + 1) ds (batches hs),
        progress.violations ++ (verdicts ds (delivered hs)).flatMap entriesOf⟩

section Ways
variable {ds : List Declaration} {progress : Progress} {c c' : Counters} {n : Nat}
  {batch : Batch} {hs hs' : List Happening} {result : Except Error Progress} {p : Pipeline}

theorem Told.nil (hp : p.builder = Builder.empty.addAll ds) :
    Told ds progress p.counters 0 [] (.ok progress) p where
  builder := hp
  reports := rfl
  failed := by
    rintro ⟨h, hmem, -⟩
    cases hmem
  completed := by
    intro _
    refine ⟨rfl, p.counters.tallies_nil, ?_⟩
    simp [passesFrom, batches, delivered, verdicts]

theorem Told.undelivered (e : Error) (hp : p.builder = Builder.empty.addAll ds) :
    Told ds progress c n [.delivery (.error e)] (.error e) p where
  builder := hp
  reports := rfl
  failed := fun _ => ⟨e, rfl⟩
  completed := fun h => absurd trivial (h _ List.mem_cons_self)

variable (hbatches : batches hs = [])
  (hreported : reported hs = (verdict ds batch.declarations).violations)
include hbatches hreported

theorem Told.unemitted (e : Error) (hfails : ∃ h ∈ hs, h.Fails)
    (hp : p.builder = Builder.empty.addAll (acceptedAfter ds (.pass batch.declarations))) :
    Told ds progress c n (.delivery (.ok batch) :: hs) (.error e) p where
  builder := by
    rw [delivered, batches_delivery, hbatches]
    exact hp
  reports := by
    rw [reported_delivery, hreported, delivered, batches_delivery, hbatches]
    exact (List.append_nil _).symm
  failed := fun _ => ⟨e, rfl⟩
  completed := by
    intro hall
    obtain ⟨h, hmem, hfail⟩ := hfails
    exact absurd hfail (hall h (List.mem_cons_of_mem _ hmem))

theorem Told.passed (hcounters : c.Tallies [verdict ds batch.declarations] c')
    (h : Told (acceptedAfter ds (.pass batch.declarations))
      ⟨progress.passes ++
          [passOf (progress.passes.length + 1) batch (verdict ds batch.declarations)],
        progress.violations ++ entriesOf (verdict ds batch.declarations)⟩ c' n hs' result p)
    (hfails : ∀ h ∈ hs, ¬ h.Fails) :
    Told ds progress c (n + 1) (.delivery (.ok batch) :: hs ++ hs') result p where
  builder := by
    have hall : delivered (.delivery (.ok batch) :: hs ++ hs') =
        batch.declarations :: delivered hs' := by
      rw [delivered, batches_append, batches_delivery, hbatches]
      rfl
    rw [hall, h.builder]
    rfl
  reports := by
    rw [reported_append, reported_delivery, hreported, h.reports, delivered, delivered,
      batches_append, batches_delivery, hbatches]
    rfl
  failed := by
    rintro ⟨x, hmem, hfail⟩
    apply h.failed
    rw [List.cons_append, List.mem_cons, List.mem_append] at hmem
    rcases hmem with rfl | hmem | hmem
    · cases hfail
    · exact absurd hfail (hfails x hmem)
    · exact ⟨x, hmem, hfail⟩
  completed := by
    intro hall
    obtain ⟨hlength, htallies, hresult⟩ :=
      h.completed fun x hmem => hall x (List.mem_append_right _ hmem)
    have hall' : batches (.delivery (.ok batch) :: hs ++ hs') = batch :: batches hs' := by
      rw [batches_append, batches_delivery, hbatches]
      rfl
    rw [delivered, hall']
    refine ⟨by rw [List.length_cons, hlength], hcounters.cons htallies, ?_⟩
    rw [hresult, passesFrom, List.length_append, List.length_singleton, List.append_assoc,
      List.append_assoc]
    rfl

end Ways

section Told
variable {σ : Type} (effects : Effects σ) {p : Pipeline} {ds : List Declaration}
  (hp : p.builder = Builder.empty.addAll ds) (hds : (ds.map (·.identity)).Nodup)
include hp hds

theorem told_pass (batch : List Declaration) (world : σ × List Happening) :
    ∃ hs, (pass .standard effects.noting batch p world).2.2.2 = world.2 ++ hs ∧
      effects.Leads world.1 hs (pass .standard effects.noting batch p world).2.2.1 ∧
      hs.filterMap call? = (verdict ds batch).calls ∧
      (pass .standard effects.noting batch p world).2.1.builder =
        Builder.empty.addAll (acceptedAfter ds (.pass batch)) ∧
      ((∃ h ∈ hs, h.Fails) ∧ (∃ e, (pass .standard effects.noting batch p world).1 = .error e) ∨
        (∀ h ∈ hs, ¬ h.Fails) ∧
          (pass .standard effects.noting batch p world).1 = .ok (verdict ds batch) ∧
          p.counters.Tallies [verdict ds batch]
            (pass .standard effects.noting batch p world).2.1.counters) := by
  obtain ⟨hs, hleads, hpassed, hfails⟩ := leads_pass .standard effects.noting p batch world
  obtain ⟨hcalls, hresult⟩ := hpassed.verdict hp hds
  refine ⟨hs, hleads.noted, effects.shadows_noting.leads hleads, hcalls,
    hpassed.builder_eq_addAll hp hds, ?_⟩
  rcases hresult with hok | ⟨order, e, -, herror⟩
  · refine Or.inr ⟨?_, hok, ?_⟩
    · intro h hmem hfail
      obtain ⟨e, herror⟩ := hfails.2 ⟨h, hmem, hfail⟩
      rw [hok] at herror
      cases herror
    · rw [hok] at hpassed
      exact hpassed.tallies
  · exact Or.inl ⟨hfails.1 ⟨e, herror⟩, e, herror⟩

/-- What is written down in a build tells what the build comes to. -/
theorem told_runFrom (deliveries : List (Delivery σ)) (progress : Progress)
    (world : σ × List Happening) :
    ∃ hs,
      (runFrom .standard effects.noting (deliveries.map Delivery.noting) progress p world).2.2.2 =
        world.2 ++ hs ∧
      Told ds progress p.counters deliveries.length hs
        (runFrom .standard effects.noting (deliveries.map Delivery.noting) progress p world).1
        (runFrom .standard effects.noting (deliveries.map Delivery.noting) progress p
          world).2.1 := by
  induction deliveries generalizing progress p ds world with
  | nil => exact ⟨[], (List.append_nil _).symm, .nil hp⟩
  | cons delivery deliveries ih =>
    rw [List.map_cons, runFrom, Delivery.noting]
    rcases delivery world.1 with ⟨e | batch, w⟩
    · exact ⟨_, rfl, .undelivered e hp⟩
    dsimp only
    obtain ⟨hs, hnotes, hleads, hcalls, hbuilder, hend⟩ :=
      told_pass effects hp hds batch.declarations (w, world.2 ++ [.delivery (.ok batch)])
    have hbatches := hleads.batches_eq
    have hreported := PassResult.reported_of_calls hcalls
    have hds' := nodup_acceptedAfter hds batch.declarations
    generalize pass .standard effects.noting batch.declarations p
      (w, world.2 ++ [.delivery (.ok batch)]) = passed at hnotes hbuilder hend ⊢
    obtain ⟨answer, p', w'⟩ := passed
    rcases hend with ⟨hfails, e, rfl⟩ | ⟨hfails, rfl, htallies⟩
    · exact ⟨_, hnotes.trans (List.append_assoc ..),
        .unemitted hbatches hreported e hfails hbuilder⟩
    · obtain ⟨hs', hnotes', htold⟩ := ih hbuilder hds' _ _
      refine ⟨_, ?_, .passed hbatches hreported htallies htold hfails⟩
      have hlogged : world.2 ++ [Happening.delivery (.ok batch)] ++ hs = w'.2 := hnotes.symm
      rw [hnotes', List.cons_append, List.append_cons, ← List.append_assoc, hlogged]
      rfl

end Told

/-- What a whole build comes to, told from its chronicle. -/
structure ToldRun (timestamp : String) (deliveries : Nat) (hs : List Happening)
    (result : Except Error Report) (p : Pipeline) : Prop where
  builder : p.builder = Builder.empty.addAll (acceptedFrom [] (delivered hs))
  reports : reported hs = (verdicts [] (delivered hs)).flatMap PassResult.violations
  failed : (∃ h ∈ hs, h.Fails) → ∃ e, result = .error e
  completed : (∀ h ∈ hs, ¬ h.Fails) →
    (batches hs).length = deliveries ∧
    Counters.zero.Tallies (verdicts [] (delivered hs)) p.counters ∧
    result = .ok (Report.of timestamp (passesFrom 1 [] (batches hs))
      ((verdicts [] (delivered hs)).flatMap entriesOf))

theorem told_run {σ : Type} (effects : Effects σ) (timestamp : String)
    (deliveries : List (Delivery σ)) (p : Pipeline) (world : σ) :
    ToldRun timestamp deliveries.length (chronicle .standard effects timestamp deliveries p world)
      (run .standard effects timestamp deliveries p world).1
      (run .standard effects timestamp deliveries p world).2.1 := by
  have hnoting := run_noting .standard effects timestamp deliveries p (world, [])
  rw [hnoting, chronicle]
  have hfresh : fresh.builder = Builder.empty.addAll [] := rfl
  obtain ⟨hs, hnotes, htold⟩ := told_runFrom effects hfresh List.nodup_nil deliveries ⟨[], []⟩
    (effects.noting.log ⟨.debug, "Pipeline reset", []⟩ (world, []))
  unfold run reset
  dsimp only
  generalize runFrom .standard effects.noting _ _ fresh _ = out at hnotes htold ⊢
  obtain ⟨result, p', w⟩ := out
  have hchronicle : w.2 = hs := hnotes
  cases result with
  | error e =>
    refine ⟨hchronicle ▸ htold.builder, hchronicle ▸ htold.reports, fun _ => ⟨e, rfl⟩, ?_⟩
    intro hall
    obtain ⟨-, -, hresult⟩ := htold.completed (hchronicle ▸ hall)
    cases hresult
  | ok progress =>
    refine ⟨hchronicle ▸ htold.builder, hchronicle ▸ htold.reports, ?_, ?_⟩
    · intro hfail
      obtain ⟨e, he⟩ := htold.failed (hchronicle ▸ hfail)
      cases he
    · intro hall
      obtain ⟨hlength, htallies, hresult⟩ := htold.completed (hchronicle ▸ hall)
      cases hresult
      subst hchronicle
      exact ⟨hlength, htallies, rfl⟩

end Build

end ComponentWiring
