import ComponentWiring.Pipeline

/-! # What a pass can come to

A pass ends in one of five ways. Each is told here with the state that it leaves and the calls that
it makes, so that what passes keep is shown by cases on these ways.

* `Call`, `Effects.recording`: orders handed out and violations reported, written down in order.
* `Pipeline.Passed`: the ways in which a pass can end.
* `Pipeline.Passed.builder_eq`: declarations are inserted all together or not at all.
-/

namespace ComponentWiring
set_option autoImplicit false

/-! ## Calls -/

/-- An order that is handed out, or a violation that is reported. -/
inductive Call where
  | emit (order : List Identity)
  | report (violation : Violation)
  deriving DecidableEq

namespace Effects
variable {σ : Type} (effects : Effects σ)

/-- The effects, with each call written down behind those before it. -/
def recording : Effects (σ × List Call) where
  emit order world :=
    ((effects.emit order world.1).1, (effects.emit order world.1).2, world.2 ++ [.emit order])
  report violation world := (effects.report violation world.1, world.2 ++ [.report violation])
  log event world := (effects.log event world.1, world.2)

end Effects

/-! ## The ways in which a pass ends -/

namespace Counters

def withoutWork (c : Counters) : Counters :=
  { c with passes := c.passes + 1, noWorkPasses := c.noWorkPasses + 1 }

def rejected (c : Counters) : Counters :=
  { c with passes := c.passes + 1, invalidPasses := c.invalidPasses + 1 }

def resolved (c : Counters) (inserted : Nat) : Counters :=
  { c with
    passes := c.passes + 1
    resolutions := c.resolutions + 1
    insertedDeclarations := c.insertedDeclarations + inserted }

end Counters

namespace Pipeline

section Ways
variable {σ : Type} (rules : Rules) (effects : Effects σ) (p : Pipeline) (batch : List Declaration)

def taken : List Declaration := unseen p.builder.seen batch

def violations : List DeclarationViolation := (rules.validator.checkAll (p.taken batch)).value

def extended : Pipeline :=
  ⟨p.builder.addAll (p.taken batch), p.counters.resolved (takenCount p.builder (p.taken batch))⟩

/-- The ways in which a pass ends: its result, the state that it leaves and the calls it makes. -/
inductive Passed : Except Error PassResult → Pipeline → List Call → Prop where
  | noWork (hnone : p.taken batch = []) :
      Passed (.ok .noWork) ⟨p.builder, p.counters.withoutWork⟩ []
  | invalid (hsome : p.taken batch ≠ []) (hinvalid : violations rules p batch ≠ []) :
      Passed (.ok (.invalid (violations rules p batch))) ⟨p.builder, p.counters.rejected⟩
        ((violations rules p batch).map fun v => .report v.toViolation)
  | cycle (path : List Identity) (hsome : p.taken batch ≠ [])
      (hvalid : violations rules p batch = [])
      (hcycle : (rules.order (p.extended batch).builder.graph).value = .cycle path) :
      Passed (.ok (.cycle path))
        { p.extended batch with
          counters.cycles := (p.extended batch).counters.cycles + 1 }
        [.report (CycleViolation.mk path).toViolation]
  | emitted (order : List Identity) (summary : EmitSummary) (world : σ)
      (hsome : p.taken batch ≠ []) (hvalid : violations rules p batch = [])
      (horder : (rules.order (p.extended batch).builder.graph).value = .ordered order)
      (hemit : (effects.emit order world).1 = .ok summary) :
      Passed (.ok (.emitted order))
        { p.extended batch with
          counters.emissions := (p.extended batch).counters.emissions + 1 }
        [.emit order]
  | failed (order : List Identity) (e : Error) (world : σ)
      (hsome : p.taken batch ≠ []) (hvalid : violations rules p batch = [])
      (horder : (rules.order (p.extended batch).builder.graph).value = .ordered order)
      (hemit : (effects.emit order world).1 = .error e) :
      Passed (.error e) (p.extended batch) [.emit order]

end Ways

/-! ## What every way has in common -/

section Passed
variable {σ : Type} {rules : Rules} {effects : Effects σ} {p p' : Pipeline}
  {batch : List Declaration} {result : Except Error PassResult} {calls : List Call}

/-- The fresh declarations of a batch are inserted together, if no rule is broken. -/
theorem Passed.builder_eq (h : Passed rules effects p batch result p' calls) :
    p'.builder =
      if violations rules p batch = [] then p.builder.addAll (p.taken batch) else p.builder := by
  cases h with
  | noWork hnone =>
    rw [hnone]
    exact (ite_self _).symm
  | invalid _ hinvalid => rw [if_neg hinvalid]
  | cycle _ _ hvalid => rw [if_pos hvalid, extended]
  | emitted _ _ _ _ hvalid => rw [if_pos hvalid, extended]
  | failed _ _ _ _ hvalid => rw [if_pos hvalid, extended]

/-- An order is handed out alone, and it is the one of the graph that the pass leaves. -/
theorem Passed.eq_of_emit_mem (h : Passed rules effects p batch result p' calls)
    {order : List Identity} (hmem : .emit order ∈ calls) :
    calls = [.emit order] ∧ (rules.order p'.builder.graph).value = .ordered order := by
  cases h with
  | noWork => cases hmem
  | invalid => simp at hmem
  | cycle => simp at hmem
  | emitted order' _ _ _ _ horder =>
    obtain rfl : order = order' := by simpa using hmem
    exact ⟨rfl, horder⟩
  | failed order' _ _ _ _ horder =>
    obtain rfl : order = order' := by simpa using hmem
    exact ⟨rfl, horder⟩

end Passed

end Pipeline

end ComponentWiring
