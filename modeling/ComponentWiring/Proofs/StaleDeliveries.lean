import ComponentWiring.Proofs.Acceptance

/-! # Stale deliveries

Declarations of components that were accepted before, or that are declared further to the front of
the same batch, have no influence on a run: not on its results, not on its calls, not on its state.

* `Declaration.Padded`: a batch with stale declarations put in.
* `Pipeline.PaddedFrom`: moves with stale declarations put into their batches.
* `Pipeline.pass_eq_of_taken_eq`: where nothing is seen of the log, a pass depends on the fresh
  declarations of its batch alone.
* `Pipeline.run_of_stale`: two runs that differ in stale declarations.
-/

namespace ComponentWiring
set_option autoImplicit false

/-! ## Batches with stale declarations -/

/-- A batch and the same batch with declarations put in anywhere, each of a component that is known
or that is declared further to the front. -/
inductive Declaration.Padded : List Identity → List Declaration → List Declaration → Prop where
  | nil {known : List Identity} : Padded known [] []
  | keep {known : List Identity} {batch padded : List Declaration} (d : Declaration)
      (h : Padded (d.identity :: known) batch padded) : Padded known (d :: batch) (d :: padded)
  | stale {known : List Identity} {batch padded : List Declaration} (d : Declaration)
      (hd : d.identity ∈ known) (h : Padded known batch padded) : Padded known batch (d :: padded)

namespace Pipeline
open Declaration

/-- Moves and the same moves with stale declarations put into their batches, where some declarations
were accepted before. -/
inductive PaddedFrom (rules : Rules) : List Declaration → List Move → List Move → Prop where
  | nil {ds : List Declaration} : PaddedFrom rules ds [] []
  | pass {ds batch padded : List Declaration} {moves moves' : List Move}
      (hbatch : Padded (ds.map (·.identity)) batch padded)
      (h : PaddedFrom rules (admittedAfter rules ds (.pass batch)) moves moves') :
      PaddedFrom rules ds (.pass batch :: moves) (.pass padded :: moves')
  | reset {ds : List Declaration} {moves moves' : List Move}
      (h : PaddedFrom rules [] moves moves') :
      PaddedFrom rules ds (.reset :: moves) (.reset :: moves')

theorem unseen_padded {known : List Identity} {batch padded : List Declaration}
    (h : Padded known batch padded) {seen : Seen} (hseen : ∀ a ∈ known, seen.has a = true) :
    unseen seen padded = unseen seen batch := by
  induction h generalizing seen with
  | nil => rfl
  | @keep known batch padded d _ ih =>
    by_cases hd : seen.has d.identity = true
    · have hknown : ∀ a ∈ d.identity :: known, seen.has a = true :=
        List.forall_mem_cons.2 ⟨hd, hseen⟩
      rw [unseen, unseen, if_pos hd, if_pos hd, ih hknown]
    · have hknown : ∀ a ∈ d.identity :: known, (seen.insert d.identity).has a = true := by
        intro a ha
        rw [Seen.has_insert, Bool.or_eq_true, decide_eq_true_eq]
        exact (List.mem_cons.1 ha).imp_right (hseen a)
      rw [unseen, unseen, if_neg hd, if_neg hd, ih hknown]
  | @stale known batch padded d hd _ ih =>
    rw [unseen, if_pos (hseen _ hd), ih hseen]

/-! ## Effects that see nothing of the log -/

section Quiet
variable {σ : Type} (rules : Rules) {effects : Effects σ}
  (hquiet : ∀ event world, effects.log event world = world)
include hquiet

theorem pass_eq_of_taken_eq {p : Pipeline} {batch padded : List Declaration}
    (h : p.taken padded = p.taken batch) (world : σ) :
    pass rules effects padded p world = pass rules effects batch p world := by
  have hunseen : unseen p.builder.seen padded = unseen p.builder.seen batch := h
  unfold pass
  simp only [hunseen, hquiet]

/-- Stale declarations change neither the results of moves nor what they lead to. -/
theorem moves_of_stale {ds : List Declaration} {moves moves' : List Move}
    (h : PaddedFrom rules ds moves moves') (now : Pipeline × σ)
    (hnow : now.1.builder = Builder.empty.addAll ds) (hds : (ds.map (·.identity)).Nodup) :
    resultsFrom rules effects now moves' = resultsFrom rules effects now moves ∧
      moves'.foldl (move rules effects) now = moves.foldl (move rules effects) now := by
  induction h generalizing now with
  | nil => exact ⟨rfl, rfl⟩
  | @pass ds batch padded moves moves' hbatch _ ih =>
    have hholds : now.1.builder.Holds ds := hnow ▸ Builder.holds_addAll ds hds
    have hknown : ∀ a ∈ ds.map (·.identity), now.1.builder.seen.has a = true :=
      fun a ha => (hholds.has_iff a).2 ha
    have hpass := pass_eq_of_taken_eq rules hquiet (unseen_padded hbatch hknown) now.2
    have hmove : move rules effects now (.pass padded) = move rules effects now (.pass batch) :=
      congrArg Prod.snd hpass
    obtain ⟨hs, -, hpassed, -⟩ := leads_pass rules effects now.1 batch now.2
    obtain ⟨hresults, hend⟩ := ih _ (hpassed.builder_eq_admitted hnow hds)
      (nodup_admittedAfter rules hds (.pass batch))
    refine ⟨?_, ?_⟩
    · rw [resultsFrom, resultsFrom, hpass, hmove]
      exact congrArg (List.cons _) hresults
    · rw [List.foldl_cons, List.foldl_cons, hmove]
      exact hend
  | reset _ ih =>
    rw [resultsFrom, resultsFrom, List.foldl_cons, List.foldl_cons]
    exact ih _ rfl List.nodup_nil

end Quiet

/-! ## Two runs -/

section Runs
variable {σ τ : Type} (rules : Rules) {effects : Effects σ} {small : Effects τ} {part : σ → τ}

theorem calls_shadows (h : effects.Shadows small part) (moves : List Move) (world : σ) :
    calls rules small moves (part world) = calls rules effects moves world := by
  have hrun := run_shadows rules effects.recording h.recording moves (world, [])
  rw [calls, calls, hrun]

/-- Stale declarations have no influence on a run, where the answers to emissions depend on a part
of the world that is changed by emissions and reports and by no logging. -/
theorem run_of_stale (hpart : effects.Shadows small part)
    (hquiet : ∀ event w, small.log event w = w) {moves moves' : List Move}
    (h : PaddedFrom rules [] moves moves') {world world' : σ} (hworld : part world' = part world) :
    results rules effects moves' world' = results rules effects moves world ∧
      calls rules effects moves' world' = calls rules effects moves world ∧
      (run rules effects moves' world').1 = (run rules effects moves world).1 := by
  have hrecording : ∀ event w, small.recording.log event w = w :=
    fun event w => congrArg (·, w.2) (hquiet event w.1)
  -- on the part of the world nothing is seen of the log, so there the runs are the same
  obtain ⟨hresults, hrun⟩ :=
    moves_of_stale rules hquiet h (fresh, part world) rfl List.nodup_nil
  obtain ⟨-, hcalls⟩ :=
    moves_of_stale rules hrecording h (fresh, part world, []) rfl List.nodup_nil
  refine ⟨?_, ?_, ?_⟩
  · calc results rules effects moves' world'
      _ = results rules small moves' (part world') :=
        (resultsFrom_shadows rules effects hpart (fresh, world') moves').symm
      _ = results rules small moves (part world) := by
        rw [hworld]
        exact hresults
      _ = results rules effects moves world :=
        resultsFrom_shadows rules effects hpart (fresh, world) moves
  · calc calls rules effects moves' world'
      _ = calls rules small moves' (part world') := (calls_shadows rules hpart moves' world').symm
      _ = calls rules small moves (part world) := by
        rw [hworld]
        exact congrArg (fun now => now.2.2) hcalls
      _ = calls rules effects moves world := calls_shadows rules hpart moves world
  · calc (run rules effects moves' world').1
      _ = (run rules small moves' (part world')).1 := by
        rw [run_shadows rules effects hpart]
      _ = (run rules small moves (part world)).1 := by
        rw [hworld]
        exact congrArg Prod.fst hrun
      _ = (run rules effects moves world).1 := by
        rw [run_shadows rules effects hpart]

end Runs

namespace Sample
open ComponentWiring.Sample

/-- Effects in a world that keeps the log. -/
def keepingLog : Effects (List Event) :=
  ⟨fun order events => (.ok ⟨order.length, 0⟩, events), fun _ events => events,
    fun event events => events ++ [event]⟩

/-- A pass, a pass that is rejected, and a pass that closes a cycle. -/
def moves : List Move :=
  [.pass [appOnStore], .pass [.bare store .interface true], .pass [storeOnApp]]

/-- The same passes with stale declarations, among them ones that are not valid. -/
def padded : List Move :=
  [.pass [appOnStore, .bare app .abstract true],
    .pass [.concrete app, .bare store .interface true, storeOnApp],
    .pass [storeOnApp, appOnStore, .bare store .interface false]]

theorem run_of_stale_of_three :
    keepingLog.Shadows writing (fun _ => ()) ∧ PaddedFrom .standard [] moves padded ∧
      results .standard keepingLog padded [] = results .standard keepingLog moves [] ∧
      calls .standard keepingLog padded [] = calls .standard keepingLog moves [] ∧
      (run .standard keepingLog padded []).1 = (run .standard keepingLog moves []).1 := by
  have hpart : keepingLog.Shadows writing (fun _ => ()) :=
    ⟨fun _ _ => rfl, fun _ _ => rfl, fun _ _ => rfl⟩
  have hstale : PaddedFrom .standard [] moves padded := by
    refine .pass (.keep _ (.stale _ (by decide) .nil)) ?_
    refine .pass (.stale _ (by decide) (.keep _ (.stale _ (by decide) .nil))) ?_
    exact .pass (.keep _ (.stale _ (by decide) (.stale _ (by decide) .nil))) .nil
  exact ⟨hpart, hstale, run_of_stale .standard hpart (fun _ _ => rfl) hstale rfl⟩

end Sample

end Pipeline

end ComponentWiring
