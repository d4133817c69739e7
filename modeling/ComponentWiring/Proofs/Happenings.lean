import ComponentWiring.Build
import ComponentWiring.Proofs.Passes
import Mathlib.Data.List.Basic

/-! # Happenings

What happens between the program and the world: every delivery and every emission with its answer,
and every report.

* `Happening`, `Effects.noting`: happenings, written down as they come.
* `Effects.Leads`: from one world to another, by effects alone.
* `Effects.Shadows`: effects that do the same on a part of the world.
* `Pipeline.leads_pass`: a pass leads from world to world by the calls of its way.
* `Pipeline.passed_recording`: a pass makes the calls of its way.
* `Pipeline.pass_recording`: a pass is the same whether its calls are written down or not.
-/

namespace ComponentWiring
set_option autoImplicit false

/-- What happens between a build and the world, with the answer where there is one. -/
inductive Happening where
  | delivery (answer : Except Error Batch)
  | emission (order : List Identity) (answer : Except Error EmitSummary)
  | report (violation : Violation)

namespace Happening

def Fails : Happening → Prop
  | delivery (.error _) => True
  | emission _ (.error _) => True
  | _ => False

instance : DecidablePred Fails
  | delivery (.error _) => isTrue trivial
  | delivery (.ok _) => isFalse id
  | emission _ (.error _) => isTrue trivial
  | emission _ (.ok _) => isFalse id
  | report _ => isFalse id

def batch? : Happening → Option Batch
  | delivery (.ok batch) => some batch
  | _ => none

def violation? : Happening → Option Violation
  | report violation => some violation
  | _ => none

def call? : Happening → Option Call
  | emission order _ => some (.emit order)
  | report violation => some (.report violation)
  | delivery _ => none

/-- The batches that were delivered. -/
def batches (hs : List Happening) : List Batch := hs.filterMap batch?

/-- The violations that were reported. -/
def reported (hs : List Happening) : List Violation := hs.filterMap violation?

@[simp] theorem batches_append (hs hs' : List Happening) :
    batches (hs ++ hs') = batches hs ++ batches hs' :=
  List.filterMap_append

@[simp] theorem reported_append (hs hs' : List Happening) :
    reported (hs ++ hs') = reported hs ++ reported hs' :=
  List.filterMap_append

@[simp] theorem batches_delivery (batch : Batch) (hs : List Happening) :
    batches (.delivery (.ok batch) :: hs) = batch :: batches hs :=
  rfl

@[simp] theorem reported_delivery (answer : Except Error Batch) (hs : List Happening) :
    reported (.delivery answer :: hs) = reported hs :=
  rfl

theorem reported_eq_of_calls {hs : List Happening} {calls : List Call}
    (h : hs.filterMap call? = calls) :
    reported hs = calls.filterMap fun
      | .report violation => some violation
      | .emit _ => none := by
  rw [← h, List.filterMap_filterMap]
  apply List.filterMap_congr
  intro happening _
  cases happening with
  | delivery answer => rfl
  | emission order answer => rfl
  | report violation => rfl

end Happening

/-! ## From world to world -/

namespace Effects
variable {σ τ : Type}

/-- The effects, with what happens written down. -/
def noting (effects : Effects σ) : Effects (σ × List Happening) where
  emit order world :=
    ((effects.emit order world.1).1, (effects.emit order world.1).2,
      world.2 ++ [.emission order (effects.emit order world.1).1])
  report violation world := (effects.report violation world.1, world.2 ++ [.report violation])
  log event world := (effects.log event world.1, world.2)

/-- The worlds to which effects lead, with what happens on the way. -/
inductive Leads (effects : Effects σ) (world : σ) : List Happening → σ → Prop where
  | refl : Leads effects world [] world
  | log (event : Event) {hs : List Happening} {w : σ} (h : Leads effects world hs w) :
      Leads effects world hs (effects.log event w)
  | report (violation : Violation) {hs : List Happening} {w : σ} (h : Leads effects world hs w) :
      Leads effects world (hs ++ [.report violation]) (effects.report violation w)
  | emit (order : List Identity) {hs : List Happening} {w : σ} (h : Leads effects world hs w) :
      Leads effects world (hs ++ [.emission order (effects.emit order w).1])
        (effects.emit order w).2

section Leads
variable {effects : Effects σ} {world w : σ} {hs : List Happening}

theorem Leads.logAll (events : List Event) (h : Leads effects world hs w) :
    Leads effects world hs (effects.logAll events w) := by
  unfold Effects.logAll
  induction events generalizing w with
  | nil => exact h
  | cons event events ih => exact ih (h.log event)

theorem Leads.reportAll (violations : List DeclarationViolation) (h : Leads effects world hs w) :
    Leads effects world (hs ++ violations.map fun v => .report v.toViolation)
      (Pipeline.reportAll effects violations w) := by
  unfold Pipeline.reportAll
  induction violations generalizing w hs with
  | nil => simpa using h
  | cons v violations ih =>
    rw [List.map_cons, List.append_cons]
    exact ih (.report v.toViolation (.log _ h))

/-- Effects alone deliver nothing. -/
theorem Leads.delivery_notMem (h : Leads effects world hs w) (answer : Except Error Batch) :
    .delivery answer ∉ hs := by
  induction h with
  | refl => exact List.not_mem_nil
  | log _ _ ih => exact ih
  | report _ _ ih => simpa using ih
  | emit _ _ ih => simpa using ih

theorem Leads.batches_eq (h : Leads effects world hs w) : Happening.batches hs = [] := by
  rw [Happening.batches, List.filterMap_eq_nil_iff]
  intro happening hmem
  cases happening with
  | delivery answer => exact absurd hmem (h.delivery_notMem answer)
  | emission order answer => rfl
  | report violation => rfl

theorem Leads.exists_failed_emission (h : Leads effects world hs w)
    (hfails : ∃ x ∈ hs, Happening.Fails x) : ∃ order e, .emission order (.error e) ∈ hs := by
  obtain ⟨happening, hmem, hfail⟩ := hfails
  cases happening with
  | delivery answer => exact absurd hmem (h.delivery_notMem answer)
  | report violation => cases hfail
  | emission order answer =>
    cases answer with
    | ok summary => cases hfail
    | error e => exact ⟨order, e, hmem⟩

theorem Leads.not_fails (h : Leads effects world hs w)
    (hemit : ∀ order w, ∃ summary, (effects.emit order w).1 = .ok summary) :
    ∀ x ∈ hs, ¬ Happening.Fails x := by
  induction h with
  | refl => exact fun _ hmem => by cases hmem
  | log _ _ ih => exact ih
  | report violation _ ih =>
    rw [List.forall_mem_append, List.forall_mem_singleton]
    exact ⟨ih, id⟩
  | @emit order _ w _ ih =>
    obtain ⟨summary, hsummary⟩ := hemit order w
    rw [List.forall_mem_append, List.forall_mem_singleton, hsummary]
    exact ⟨ih, id⟩

theorem Leads.eq_nil_of_calls (h : Leads effects world hs w)
    (hcalls : hs.filterMap Happening.call? = []) : hs = [] := by
  rw [List.filterMap_eq_nil_iff] at hcalls
  rw [List.eq_nil_iff_forall_not_mem]
  intro happening hmem
  cases happening with
  | delivery answer => exact h.delivery_notMem answer hmem
  | emission order answer => cases hcalls _ hmem
  | report violation => cases hcalls _ hmem

/-- Where one order is handed out and nothing is reported, there is only logging around it. -/
theorem Leads.exists_emission (h : Leads effects world hs w) {order : List Identity}
    (hcalls : hs.filterMap Happening.call? = [.emit order]) :
    ∃ w', hs = [.emission order (effects.emit order w').1] ∧ Leads effects world [] w' ∧
      Leads effects (effects.emit order w').2 [] w := by
  induction h with
  | refl => cases hcalls
  | log event _ ih =>
    obtain ⟨w', hhs, hbefore, hafter⟩ := ih hcalls
    exact ⟨w', hhs, hbefore, hafter.log event⟩
  | report violation hleads _ =>
    have hlast := congrArg List.getLast? hcalls
    simp [Happening.call?] at hlast
  | @emit order' hs w' hleads _ =>
    have hboth : hs.filterMap Happening.call? ++ [.emit order'] = [] ++ [.emit order] := by
      simpa [Happening.call?] using hcalls
    obtain ⟨hnone, hlast⟩ := List.append_inj' hboth rfl
    cases hlast
    obtain rfl := hleads.eq_nil_of_calls hnone
    exact ⟨w', rfl, hleads, .refl⟩

/-- What is kept by all effects is kept on the way. -/
theorem Leads.keeps {I : σ → Prop} (h : Leads effects world hs w)
    (hlog : ∀ event w, I w → I (effects.log event w))
    (hreport : ∀ violation w, I w → I (effects.report violation w))
    (hemit : ∀ order w, .emission order (effects.emit order w).1 ∈ hs → I w →
      I (effects.emit order w).2) (hworld : I world) : I w := by
  induction h with
  | refl => exact hworld
  | log event _ ih => exact hlog event _ (ih hemit)
  | report violation _ ih =>
    exact hreport violation _ (ih fun order w hmem => hemit order w (List.mem_append_left _ hmem))
  | emit order _ ih =>
    refine hemit order _ (List.mem_append_right _ (List.mem_singleton_self _)) (ih ?_)
    exact fun order w hmem => hemit order w (List.mem_append_left _ hmem)

theorem Leads.noted {world w : σ × List Happening} (h : effects.noting.Leads world hs w) :
    w.2 = world.2 ++ hs := by
  induction h with
  | refl => exact (List.append_nil _).symm
  | log event _ ih => exact ih
  | report violation _ ih =>
    rw [← List.append_assoc, ← ih]
    rfl
  | emit order _ ih =>
    rw [← List.append_assoc, ← ih]
    rfl

theorem Leads.recorded {world w : σ × List Call} (h : effects.recording.Leads world hs w) :
    w.2 = world.2 ++ hs.filterMap Happening.call? := by
  induction h with
  | refl => exact (List.append_nil _).symm
  | log event _ ih => exact ih
  | report violation _ ih =>
    rw [List.filterMap_append, ← List.append_assoc, ← ih]
    rfl
  | emit order _ ih =>
    rw [List.filterMap_append, ← List.append_assoc, ← ih]
    rfl

end Leads

/-! ## Parts of the world -/

/-- Effects that do on a part of the world what other effects do on this part alone. -/
structure Shadows (large : Effects τ) (small : Effects σ) (part : τ → σ) : Prop where
  emit : ∀ order w, small.emit order (part w) =
    ((large.emit order w).1, part (large.emit order w).2)
  report : ∀ violation w, small.report violation (part w) = part (large.report violation w)
  log : ∀ event w, small.log event (part w) = part (large.log event w)

section Shadows
variable {large : Effects τ} {small : Effects σ} {part : τ → σ} (h : large.Shadows small part)
include h

theorem Shadows.logAll (events : List Event) (w : τ) :
    small.logAll events (part w) = part (large.logAll events w) := by
  unfold Effects.logAll
  induction events generalizing w with
  | nil => rfl
  | cons event events ih => rw [List.foldl_cons, List.foldl_cons, h.log, ih]

theorem Shadows.reportAll (violations : List DeclarationViolation) (w : τ) :
    Pipeline.reportAll small violations (part w) =
      part (Pipeline.reportAll large violations w) := by
  unfold Pipeline.reportAll
  induction violations generalizing w with
  | nil => rfl
  | cons v violations ih => rw [List.foldl_cons, List.foldl_cons, h.log, h.report, ih]

theorem Shadows.resolve (rules : Rules) (p : Pipeline) (w : τ) :
    Pipeline.resolve rules small p (part w) =
      ((Pipeline.resolve rules large p w).1, (Pipeline.resolve rules large p w).2.1,
        part (Pipeline.resolve rules large p w).2.2) := by
  unfold Pipeline.resolve
  dsimp only
  rw [h.logAll]
  generalize large.logAll _ w = w
  split
  · next order _ =>
    rw [h.emit]
    rcases large.emit order w with ⟨e | summary, w'⟩
    · rfl
    · simp only [h.log]
  · simp only [h.log, h.report]

/-- A pass on a part of the world is the part of the pass. -/
theorem Shadows.pass (rules : Rules) (batch : List Declaration) (p : Pipeline) (w : τ) :
    Pipeline.pass rules small batch p (part w) =
      ((Pipeline.pass rules large batch p w).1, (Pipeline.pass rules large batch p w).2.1,
        part (Pipeline.pass rules large batch p w).2.2) := by
  unfold Pipeline.pass
  dsimp only
  split
  · simp only [h.log]
  unfold Pipeline.take
  dsimp only
  rw [h.log, h.logAll]
  split
  · simp only [h.reportAll]
  · rw [h.logAll, h.resolve]

theorem Shadows.leads {world w : τ} {hs : List Happening} (hleads : large.Leads world hs w) :
    small.Leads (part world) hs (part w) := by
  induction hleads with
  | refl => exact .refl
  | log event _ ih =>
    rw [← h.log]
    exact ih.log event
  | report violation _ ih =>
    rw [← h.report]
    exact ih.report violation
  | emit order _ ih =>
    have hemit := ih.emit order
    rw [h.emit] at hemit
    exact hemit

theorem Shadows.recording :
    large.recording.Shadows small.recording fun world => (part world.1, world.2) where
  emit order w := by
    have hemit := h.emit order w.1
    simp only [Effects.recording, hemit]
  report violation w := congrArg (·, w.2 ++ [.report violation]) (h.report violation w.1)
  log event w := congrArg (·, w.2) (h.log event w.1)

theorem Shadows.passed {rules : Rules} {p p' : Pipeline} {batch : List Declaration}
    {result : Except Error PassResult} {calls : List Call}
    (hpassed : Pipeline.Passed rules large p batch result p' calls) :
    Pipeline.Passed rules small p batch result p' calls := by
  cases hpassed with
  | noWork hnone => exact .noWork hnone
  | invalid hsome hinvalid => exact .invalid hsome hinvalid
  | cycle path hsome hvalid hcycle => exact .cycle path hsome hvalid hcycle
  | emitted order summary w hsome hvalid horder hemit =>
    exact .emitted order summary (part w) hsome hvalid horder (by rw [h.emit, hemit])
  | failed order e w hsome hvalid horder hemit =>
    exact .failed order e (part w) hsome hvalid horder (by rw [h.emit, hemit])

end Shadows

theorem shadows_noting (effects : Effects σ) : effects.noting.Shadows effects Prod.fst :=
  ⟨fun _ _ => rfl, fun _ _ => rfl, fun _ _ => rfl⟩

theorem shadows_recording (effects : Effects σ) : effects.recording.Shadows effects Prod.fst :=
  ⟨fun _ _ => rfl, fun _ _ => rfl, fun _ _ => rfl⟩

end Effects

/-! ## Passes -/

namespace Pipeline
open Happening

/-- A pass leads from world to world by the calls of its way, and it fails exactly if one of its
happenings does. -/
theorem leads_pass {σ : Type} (rules : Rules) (effects : Effects σ) (p : Pipeline)
    (batch : List Declaration) (world : σ) :
    ∃ hs, effects.Leads world hs (pass rules effects batch p world).2.2 ∧
      Passed rules effects p batch (pass rules effects batch p world).1
        (pass rules effects batch p world).2.1 (hs.filterMap call?) ∧
      ((∃ e, (pass rules effects batch p world).1 = .error e) ↔ ∃ h ∈ hs, h.Fails) := by
  unfold pass
  dsimp only
  split
  · next hnone =>
    refine ⟨[], .log _ .refl, .noWork hnone, ?_⟩
    simp
  next hsome =>
  unfold take
  dsimp only
  split
  · next hinvalid =>
    refine ⟨_, .reportAll _ (.logAll _ (.log _ .refl)), ?_, ?_⟩
    · have hcalls : ([] ++ (violations rules p batch).map fun (v : DeclarationViolation) =>
          Happening.report v.toViolation).filterMap call? =
          (violations rules p batch).map fun v => .report v.toViolation := by
        simp [List.filterMap_map, Function.comp_def, call?]
      have hway : Passed rules effects p batch (.ok (.invalid (violations rules p batch))) _ _ :=
        .invalid hsome hinvalid
      rw [← hcalls] at hway
      exact hway
    · simp [Fails]
  next hvalid =>
  have hvalid' : violations rules p batch = [] := by simpa [violations, taken] using hvalid
  unfold resolve
  dsimp only
  generalize hw : effects.logAll _ (effects.logAll _ (effects.logAll _ _)) = w
  have hleads : effects.Leads world [] w := hw ▸ .logAll _ (.logAll _ (.logAll _ (.log _ .refl)))
  split
  · next order horder =>
    have hcall := hleads.emit order
    rcases hemit : effects.emit order w with ⟨e | summary, w'⟩
    · rw [hemit] at hcall
      have hanswer : (effects.emit order w).1 = .error e := by rw [hemit]
      exact ⟨_, hcall, .failed order e w hsome hvalid' horder hanswer, by simp [Fails]⟩
    · rw [hemit] at hcall
      have hanswer : (effects.emit order w).1 = .ok summary := by rw [hemit]
      exact ⟨_, .log _ hcall, .emitted order summary w hsome hvalid' horder hanswer,
        by simp [Fails]⟩
  · next path hcycle =>
    exact ⟨_, .report _ (.log _ hleads), .cycle path hsome hvalid' hcycle, by simp [Fails]⟩

section Recording
variable {σ : Type} (rules : Rules) (effects : Effects σ) (p : Pipeline) (batch : List Declaration)
  (world : σ × List Call)

/-- A pass ends in one of the ways, and its calls follow those before it. -/
theorem passed_recording :
    ∃ calls, Passed rules effects p batch (pass rules effects.recording batch p world).1
        (pass rules effects.recording batch p world).2.1 calls ∧
      (pass rules effects.recording batch p world).2.2.2 = world.2 ++ calls := by
  obtain ⟨hs, hleads, hpassed, -⟩ := leads_pass rules effects.recording p batch world
  exact ⟨hs.filterMap call?, effects.shadows_recording.passed hpassed, hleads.recorded⟩

/-- What is written down changes neither the result nor the state nor the world. -/
theorem pass_recording :
    pass rules effects batch p world.1 =
      ((pass rules effects.recording batch p world).1,
        (pass rules effects.recording batch p world).2.1,
        (pass rules effects.recording batch p world).2.2.1) :=
  effects.shadows_recording.pass rules batch p world

end Recording

end Pipeline

end ComponentWiring
