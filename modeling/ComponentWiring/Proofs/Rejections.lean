import ComponentWiring.Proofs.BatchCuts

/-! # Passes that insert nothing

Where all identities of a batch were seen there is no work, and where a fresh declaration is not
valid the whole batch is rejected. Both passes leave the graph and the seen identities, and what
comes later is as if there had been no such pass.

* `Rules.checking`: the check of the program, with any way to order graphs.
* `Pipeline.pass_of_known`, `Pipeline.pass_of_broken`: the two passes, written out.
* `Pipeline.resultsFrom_of_builder_eq`: where nothing is seen of the log, what passes come to
  depends on the builder alone.
* `Pipeline.Idle`, `Pipeline.Rejected`: all that the two passes do and leave.
* `Pipeline.Forgotten`, `Pipeline.Redeliverable`: what comes after a rejected pass.
* `Pipeline.build_untouched`: what a pass does that comes to no work or to violations.
-/

namespace ComponentWiring
set_option autoImplicit false

/-- The check of the program, with any way to order graphs. -/
def Rules.checking (order : Graph → Logged Outcome) : Rules := ⟨Validator.declarations, order⟩

namespace Pipeline
open Declaration

/-! ## The two passes -/

theorem unseen_eq_nil_iff (seen : Seen) (batch : List Declaration) :
    unseen seen batch = [] ↔ ∀ d ∈ batch, seen.has d.identity = true := by
  induction batch with
  | nil => simp [unseen]
  | cons d batch ih =>
    rw [List.forall_mem_cons, unseen]
    by_cases hd : seen.has d.identity = true
    · rw [if_pos hd, ih]
      exact (and_iff_right hd).symm
    · rw [if_neg hd]
      exact iff_of_false (List.cons_ne_nil _ _) fun hall => hd hall.1

section Passes
variable {σ : Type} (rules : Rules) (effects : Effects σ) {p p' : Pipeline}
  {batch : List Declaration}

/-- A pass over a batch of which all identities were seen. -/
theorem pass_of_known (h : p.taken batch = []) (world : σ) :
    pass rules effects batch p world =
      (.ok .noWork, ⟨p.builder, p.counters.withoutWork⟩,
        effects.log
          ⟨.debug, "No new declarations",
            [("pass", .natural (p.counters.passes + 1)), ("delivered", .natural batch.length)]⟩
          world) := by
  have hnone : unseen p.builder.seen batch = [] := h
  unfold pass
  dsimp only
  rw [if_pos hnone]
  rfl

/-- A pass over a batch with a fresh declaration in which a fault is found. -/
theorem pass_of_broken (hsome : p.taken batch ≠ []) (hinvalid : violations rules p batch ≠ [])
    (world : σ) :
    pass rules effects batch p world =
      (.ok (.invalid (violations rules p batch)), ⟨p.builder, p.counters.rejected⟩,
        reportAll effects (violations rules p batch)
          (effects.logAll (rules.validator.checkAll (p.taken batch)).events
            (effects.log
              ⟨.debug, "Processing pass",
                [("pass", .natural (p.counters.passes + 1)), ("delivered", .natural batch.length),
                 ("fresh", .natural (p.taken batch).length)]⟩
              world))) := by
  have hfresh : unseen p.builder.seen batch ≠ [] := hsome
  have hfault : (rules.validator.checkAll (unseen p.builder.seen batch)).value ≠ [] := hinvalid
  unfold pass
  dsimp only
  rw [if_neg hfresh]
  unfold take
  dsimp only
  rw [if_pos hfault]
  rfl

variable {rules} {effects} {calls : List Call}

theorem Passed.of_noWork (h : Passed rules effects p batch (.ok .noWork) p' calls) :
    p.taken batch = [] ∧ calls = [] := by
  cases h with
  | noWork hnone => exact ⟨hnone, rfl⟩

theorem Passed.of_invalid {vs : List DeclarationViolation}
    (h : Passed rules effects p batch (.ok (.invalid vs)) p' calls) :
    p.taken batch ≠ [] ∧ violations rules p batch ≠ [] ∧ vs = violations rules p batch ∧
      calls = vs.map fun v => .report v.toViolation := by
  cases h with
  | invalid hsome hinvalid => exact ⟨hsome, hinvalid, rfl, rfl⟩

end Passes

/-! ## Pipelines with the same builder -/

section Quiet
variable {σ : Type} (rules : Rules) {effects : Effects σ}
  (hquiet : ∀ event world, effects.log event world = world)
include hquiet

omit rules in
theorem logAll_of_quiet (events : List Event) (world : σ) :
    effects.logAll events world = world := by
  unfold Effects.logAll
  induction events with
  | nil => rfl
  | cons event events ih => rw [List.foldl_cons, hquiet, ih]

omit rules in
theorem reportAll_of_quiet (hunread : ∀ violation world, effects.report violation world = world)
    (vs : List DeclarationViolation) (world : σ) : reportAll effects vs world = world := by
  unfold reportAll
  induction vs with
  | nil => rfl
  | cons v vs ih => rw [List.foldl_cons, hquiet, hunread, ih]

theorem resolve_of_builder_eq {p q : Pipeline} (h : q.builder = p.builder) (world : σ) :
    (resolve rules effects q world).1 = (resolve rules effects p world).1 ∧
      (resolve rules effects q world).2.1.builder = (resolve rules effects p world).2.1.builder ∧
      (resolve rules effects q world).2.2 = (resolve rules effects p world).2.2 := by
  unfold resolve
  simp only [h, logAll_of_quiet hquiet, hquiet]
  split
  · next order _ =>
    rcases effects.emit order world with ⟨e | summary, w⟩
    · exact ⟨rfl, rfl, rfl⟩
    · exact ⟨rfl, rfl, rfl⟩
  · exact ⟨rfl, rfl, rfl⟩

/-- What a pass comes to and what it leaves, the counters apart, depends on the builder alone. -/
theorem pass_of_builder_eq {p q : Pipeline} (h : q.builder = p.builder)
    (batch : List Declaration) (world : σ) :
    (pass rules effects batch q world).1 = (pass rules effects batch p world).1 ∧
      (pass rules effects batch q world).2.1.builder =
        (pass rules effects batch p world).2.1.builder ∧
      (pass rules effects batch q world).2.2 = (pass rules effects batch p world).2.2 := by
  unfold pass
  simp only [h, hquiet]
  split
  · exact ⟨rfl, rfl, rfl⟩
  unfold take
  dsimp only
  split
  · exact ⟨rfl, rfl, rfl⟩
  · refine resolve_of_builder_eq rules hquiet ?_ _
    rfl

theorem resultsFrom_of_builder_eq (moves : List Move) {p q : Pipeline}
    (h : q.builder = p.builder) (world : σ) :
    resultsFrom rules effects (q, world) moves = resultsFrom rules effects (p, world) moves := by
  induction moves generalizing p q world with
  | nil => rfl
  | cons m moves ih =>
    cases m with
    | reset => rfl
    | pass batch =>
      obtain ⟨hresult, hbuilder, hworld⟩ := pass_of_builder_eq rules hquiet h batch world
      have hmove : move rules effects (q, world) (.pass batch) =
          ((pass rules effects batch q world).2.1, (pass rules effects batch p world).2.2) :=
        Prod.ext rfl hworld
      rw [resultsFrom, resultsFrom, hresult, hmove]
      exact congrArg (List.cons _) (ih hbuilder _)

end Quiet

/-! ## What the two passes do and leave -/

section Effects
variable {σ : Type}

/-- A pass over identities that were all seen. It is the same for all rules and all effects that log
alike, so nothing is checked, ordered, handed out or reported. -/
structure Idle (rules : Rules) (effects : Effects σ) (p : Pipeline) (batch : List Declaration)
    (world : σ) : Prop where
  known : ∀ d ∈ batch, p.builder.seen.has d.identity = true
  builder : (pass rules effects batch p world).2.1.builder = p.builder
  counters : (pass rules effects batch p world).2.1.counters =
    { p.counters with
      passes := p.counters.passes + 1
      noWorkPasses := p.counters.noWorkPasses + 1 }
  calls : ∀ calls, (pass rules effects.recording batch p (world, calls)).2.2.2 = calls
  unused : ∀ (rules' : Rules) (effects' : Effects σ), effects'.log = effects.log →
    pass rules' effects' batch p world = pass rules effects batch p world

/-- A pass that rejects its batch. It is the same for all ways to order graphs and all ways to hand
orders out, so no graph is ordered and no order is handed out. -/
structure Rejected (order : Graph → Logged Outcome) (effects : Effects σ) (p : Pipeline)
    (batch : List Declaration) (world : σ) (vs : List DeclarationViolation) : Prop where
  violations : vs = (Validator.declarations.checkAll
    ((firsts batch).filter fun d => !p.builder.seen.has d.identity)).value
  complete : vs =
    ((firsts batch).filter fun d => !p.builder.seen.has d.identity).filterMap violation?
  builder : (pass (.checking order) effects batch p world).2.1.builder = p.builder
  counters : (pass (.checking order) effects batch p world).2.1.counters =
    { p.counters with
      passes := p.counters.passes + 1
      invalidPasses := p.counters.invalidPasses + 1 }
  calls : ∀ calls, (pass (.checking order) effects.recording batch p (world, calls)).2.2.2 =
    calls ++ vs.map fun v => .report v.toViolation
  unordered : ∀ order', pass (.checking order') effects batch p world =
    pass (.checking order) effects batch p world
  unemitted : ∀ emit, pass (.checking order) { effects with emit } batch p world =
    pass (.checking order) effects batch p world

/-- After a pass over a batch everything is as if there had been no such pass: the builder, and,
where the answers to emissions depend on a part of the world that no logging and no reporting
changes, also what later passes come to. -/
structure Forgotten (rules : Rules) (effects : Effects σ) (moves : List Move) (world : σ)
    (batch : List Declaration) : Prop where
  builder : ∀ later, (run rules effects (moves ++ .pass batch :: later) world).1.builder =
    (run rules effects (moves ++ later) world).1.builder
  results : ∀ (τ : Type) (small : Effects τ) (part : σ → τ), effects.Shadows small part →
    (∀ event w, small.log event w = w) → (∀ violation w, small.report violation w = w) →
    ∀ later, resultsFrom rules effects (run rules effects (moves ++ [.pass batch]) world) later =
      resultsFrom rules effects (run rules effects moves world) later

/-- After a rejected pass its fresh identities are still open, and valid declarations that are
delivered later, of these or other identities, are accepted as if there had been no such pass. -/
structure Redeliverable (rules : Rules) (effects : Effects σ) (moves : List Move) (world : σ)
    (batch : List Declaration) : Prop where
  opened : ∀ d ∈ batch, (run rules effects moves world).1.builder.takes d = true →
    (run rules effects (moves ++ [.pass batch]) world).1.builder.takes d = true
  accepted : ∀ later ds, (∀ d ∈ ds, d.Valid) → ∀ vs,
    let now := run rules effects (moves ++ .pass batch :: later) world
    (pass rules effects ds now.1 now.2).1 ≠ .ok (.invalid vs)
  builder : ∀ later ds, (∀ d ∈ ds, d.Valid) →
    (run rules effects (moves ++ .pass batch :: (later ++ [.pass ds])) world).1.builder =
      (run rules effects (moves ++ later) world).1.builder.addAll ds
  inserted : ∀ later ds, (∀ d ∈ ds, d.Valid) →
    let p := (run rules effects (moves ++ .pass batch :: later) world).1
    let p' := (run rules effects (moves ++ .pass batch :: (later ++ [.pass ds])) world).1
    p'.counters.insertedDeclarations = p.counters.insertedDeclarations +
      takenCount (run rules effects (moves ++ later) world).1.builder ds

section Pass
variable {rules : Rules} {effects : Effects σ} {p : Pipeline} {batch : List Declaration} {world : σ}

theorem idle_of_noWork (h : (pass rules effects batch p world).1 = .ok .noWork) :
    Idle rules effects p batch world := by
  obtain ⟨hs, -, hpassed, -⟩ := leads_pass rules effects p batch world
  rw [h] at hpassed
  obtain ⟨hnone, -⟩ := hpassed.of_noWork
  constructor
  case known => exact (unseen_eq_nil_iff _ batch).1 hnone
  case builder => rw [pass_of_known rules effects hnone]
  case counters =>
    rw [pass_of_known rules effects hnone]
    rfl
  case calls =>
    intro calls
    rw [pass_of_known rules effects.recording hnone]
    rfl
  case unused =>
    intro rules' effects' hlog
    rw [pass_of_known rules effects hnone, pass_of_known rules' effects' hnone, hlog]

variable {order : Graph → Logged Outcome} {vs : List DeclarationViolation}

theorem rejected_of_invalid
    (h : (pass (.checking order) effects batch p world).1 = .ok (.invalid vs)) :
    Rejected order effects p batch world vs := by
  obtain ⟨hs, -, hpassed, -⟩ := leads_pass (.checking order) effects p batch world
  rw [h] at hpassed
  obtain ⟨hsome, hinvalid, rfl, -⟩ := hpassed.of_invalid
  -- the check does not look at the way to order graphs
  have hinvalid' : ∀ order', violations (.checking order') p batch ≠ [] := fun _ => hinvalid
  constructor
  case violations =>
    rw [violations, taken, unseen_eq]
    rfl
  case complete =>
    rw [violations, taken, unseen_eq]
    exact List.filterMap_map
  case builder => rw [pass_of_broken _ effects hsome hinvalid]
  case counters =>
    rw [pass_of_broken _ effects hsome hinvalid]
    rfl
  case calls =>
    intro calls
    obtain ⟨new, hnew, hcalls⟩ :=
      passed_recording (.checking order) effects p batch (world, calls)
    rw [pass_of_broken _ effects.recording hsome hinvalid] at hnew hcalls ⊢
    obtain ⟨-, -, -, rfl⟩ := hnew.of_invalid
    exact hcalls
  case unordered =>
    intro order'
    rw [pass_of_broken _ effects hsome hinvalid, pass_of_broken _ effects hsome (hinvalid' order')]
    rfl
  case unemitted =>
    intro emit
    rw [pass_of_broken _ effects hsome hinvalid, pass_of_broken _ _ hsome hinvalid]
    rfl

end Pass

/-! ## Runs with a rejected pass -/

section Run
variable {rules : Rules} {effects : Effects σ} {moves : List Move} {world : σ}
  {batch : List Declaration} {vs : List DeclarationViolation}

theorem holds_run_admitted (rules : Rules) (effects : Effects σ) (moves : List Move) (world : σ) :
    (run rules effects moves world).1.builder.Holds (admitted rules moves) := by
  rw [builder_run_admitted]
  exact Builder.holds_addAll _ (nodup_admitted rules moves)

/-- A pass over declarations without faults rejects nothing, and takes what is unseen. -/
theorem Passed.of_admits {p p' : Pipeline} {result : Except Error PassResult} {calls : List Call}
    (h : Passed rules effects p batch result p' calls) (hadmits : ∀ d ∈ batch, Admits rules d) :
    (∀ vs, result ≠ .ok (.invalid vs)) ∧ p'.builder = p.builder.addAll batch ∧
      p'.counters.insertedDeclarations =
        p.counters.insertedDeclarations + takenCount p.builder batch := by
  have hvalid : violations rules p batch = [] :=
    (violations_eq_nil_iff rules p batch).2 fun d hd => hadmits d (mem_of_mem_taken hd)
  have hbuilder := h.builder_eq
  rw [if_pos hvalid, taken, Builder.addAll_unseen] at hbuilder
  have hcount : takenCount p.builder (p.taken batch) = takenCount p.builder batch :=
    p.builder.takenCount_unseen batch
  refine ⟨?_, hbuilder, ?_⟩
  · rintro vs rfl
    exact h.of_invalid.2.1 hvalid
  · rw [← hcount]
    cases h with
    | noWork hnone =>
      rw [hnone]
      rfl
    | invalid _ hinvalid => exact absurd hvalid hinvalid
    | cycle => rfl
    | emitted => rfl
    | failed => rfl

variable (h : (pass rules effects batch (run rules effects moves world).1
  (run rules effects moves world).2).1 = .ok (.invalid vs))
include h

theorem broken_of_invalid :
    (run rules effects moves world).1.taken batch ≠ [] ∧
      violations rules (run rules effects moves world).1 batch ≠ [] := by
  obtain ⟨new, hpassed, -⟩ := passed_run rules effects moves batch world
  rw [h] at hpassed
  obtain ⟨hsome, hinvalid, -, -⟩ := hpassed.of_invalid
  exact ⟨hsome, hinvalid⟩

theorem admitted_of_invalid (later : List Move) :
    admitted rules (moves ++ .pass batch :: later) = admitted rules (moves ++ later) := by
  have hinvalid := (broken_of_invalid h).2
  rw [ne_eq, violations_eq_nil_iff,
    taken_eq_newIn (holds_run_admitted rules effects moves world)] at hinvalid
  have hsame : admittedAfter rules (admitted rules moves) (.pass batch) = admitted rules moves :=
    if_neg hinvalid
  rw [admitted] at hsame
  rw [admitted, admitted, List.foldl_append, List.foldl_append, List.foldl_cons, hsame]

theorem forgotten_of_invalid : Forgotten rules effects moves world batch where
  builder later := by
    rw [builder_run_admitted, builder_run_admitted, admitted_of_invalid h]
  results τ small part hpart hquiet hunread later := by
    obtain ⟨hsome, hinvalid⟩ := broken_of_invalid h
    have hpass := hpart.pass rules batch (run rules effects moves world).1
      (run rules effects moves world).2
    rw [pass_of_broken rules small hsome hinvalid, hquiet, logAll_of_quiet hquiet,
      reportAll_of_quiet hquiet hunread, Prod.mk.injEq, Prod.mk.injEq] at hpass
    obtain ⟨-, hleft, hworld⟩ := hpass
    have hbuilder : (pass rules effects batch (run rules effects moves world).1
        (run rules effects moves world).2).2.1.builder =
        (run rules effects moves world).1.builder := by rw [← hleft]
    rw [← resultsFrom_shadows rules effects hpart, ← resultsFrom_shadows rules effects hpart,
      run_concat, move, ← hworld]
    exact resultsFrom_of_builder_eq rules hquiet later hbuilder _

theorem redeliverable_of_invalid (hvalid : ∀ d, Admits rules d ↔ d.Valid) :
    Redeliverable rules effects moves world batch := by
  have hforgotten := forgotten_of_invalid h
  have hlater : ∀ later ds, (∀ d ∈ ds, d.Valid) →
      let now := run rules effects (moves ++ .pass batch :: later) world
      let after := run rules effects (moves ++ .pass batch :: (later ++ [.pass ds])) world
      (∀ vs, (pass rules effects ds now.1 now.2).1 ≠ .ok (.invalid vs)) ∧
        after.1.builder = now.1.builder.addAll ds ∧
        after.1.counters.insertedDeclarations =
          now.1.counters.insertedDeclarations + takenCount now.1.builder ds := by
    intro later ds hds
    obtain ⟨new, hpassed, -⟩ := passed_run rules effects (moves ++ .pass batch :: later) ds world
    have happend : moves ++ .pass batch :: later ++ [.pass ds] =
        moves ++ .pass batch :: (later ++ [.pass ds]) := by simp
    rw [happend] at hpassed
    exact hpassed.of_admits fun d hd => (hvalid d).2 (hds d hd)
  constructor
  case opened =>
    intro d _ hopen
    have hsame := hforgotten.builder []
    rw [List.append_nil] at hsame
    rw [hsame]
    exact hopen
  case accepted => exact fun later ds hds => (hlater later ds hds).1
  case builder =>
    intro later ds hds
    rw [(hlater later ds hds).2.1, hforgotten.builder]
  case inserted =>
    intro later ds hds
    have hcount := (hlater later ds hds).2.2
    rw [hforgotten.builder] at hcount
    exact hcount

end Run

/-- In every state that moves lead to, under the check of the program and any way to order graphs, a
pass that comes to no work is idle, and a pass that comes to violations rejects its batch, is
forgotten, and leaves the batch to be delivered again. -/
theorem build_untouched (order : Graph → Logged Outcome) (effects : Effects σ) (moves : List Move)
    (world : σ) (batch : List Declaration) :
    let rules := Rules.checking order
    let now := run rules effects moves world
    ((pass rules effects batch now.1 now.2).1 = .ok .noWork →
        Idle rules effects now.1 batch now.2) ∧
      ∀ vs, (pass rules effects batch now.1 now.2).1 = .ok (.invalid vs) →
        Rejected order effects now.1 batch now.2 vs ∧ Forgotten rules effects moves world batch ∧
          Redeliverable rules effects moves world batch := by
  refine ⟨idle_of_noWork, fun vs h => ⟨rejected_of_invalid h, forgotten_of_invalid h, ?_⟩⟩
  exact redeliverable_of_invalid h violation?_eq_none_iff

end Effects

namespace Sample
open ComponentWiring.Sample

theorem build_untouched_by_interface :
    (pass .standard writing [.concrete app] (run .standard writing [.pass [appOnStore]] ()).1
          (run .standard writing [.pass [appOnStore]] ()).2).1 = .ok .noWork ∧
      Idle .standard writing (run .standard writing [.pass [appOnStore]] ()).1 [.concrete app]
        (run .standard writing [.pass [appOnStore]] ()).2 ∧
      (pass .standard writing [.concrete app, .bare store .interface true]
          (run .standard writing [.pass [appOnStore]] ()).1
          (run .standard writing [.pass [appOnStore]] ()).2).1 =
        .ok (.invalid [.of .isInterface (.bare store .interface true)]) ∧
      Redeliverable .standard writing [.pass [appOnStore]] ()
        [.concrete app, .bare store .interface true] := by
  have hknown : (pass .standard writing [.concrete app]
      (run .standard writing [.pass [appOnStore]] ()).1
      (run .standard writing [.pass [appOnStore]] ()).2).1 = .ok .noWork := by cbv
  have hinvalid : (pass .standard writing [.concrete app, .bare store .interface true]
      (run .standard writing [.pass [appOnStore]] ()).1
      (run .standard writing [.pass [appOnStore]] ()).2).1 =
        .ok (.invalid [.of .isInterface (.bare store .interface true)]) := by cbv
  obtain ⟨hidle, -⟩ := build_untouched Graph.order writing [.pass [appOnStore]] () [.concrete app]
  obtain ⟨-, hrejected⟩ := build_untouched Graph.order writing [.pass [appOnStore]] ()
    [.concrete app, .bare store .interface true]
  exact ⟨hknown, hidle hknown, hinvalid, (hrejected _ hinvalid).2.2⟩

end Sample

end Pipeline

end ComponentWiring
