import ComponentWiring.Pipeline
import ComponentWiring.Report.Basic

/-! # Builds

A build resets the pipeline, runs one pass for every batch that is delivered, and reports.

* `Batch`: declarations and where they come from.
* `Delivery`: the delivery of a batch, which may fail.
* `Build.run`: a build.
-/

namespace ComponentWiring
open Data
set_option autoImplicit false

/-- Declarations and where they come from. -/
structure Batch where
  source : Option String
  declarations : List Declaration
  deriving DecidableEq

abbrev Delivery (σ : Type) := σ → Except Error Batch × σ

namespace Build

/-- The identities of a pass result: the order, the cycle, or the violating components. -/
def identitiesOf : PassResult → List String
  | .noWork => []
  | .emitted order => order.map (·.name)
  | .cycle path => path.map (·.name)
  | .invalid violations => violations.map (·.identity.name)

def entriesOf : PassResult → List Report.Entry
  | .noWork => []
  | .emitted _ => []
  | .cycle path => [Report.Entry.of (CycleViolation.mk path).toViolation]
  | .invalid violations => violations.map fun v => Report.Entry.of v.toViolation

def passOf (number : Nat) (batch : Batch) (result : PassResult) : Report.Pass where
  pass := number
  source := batch.source
  declarations := batch.declarations.length
  outcome := result.name
  identities := identitiesOf result
  violationCount := match result with
    | .noWork => 0
    | .emitted _ => 0
    | .cycle _ => 1
    | .invalid violations => violations.length

def passEvent (p : Report.Pass) (result : PassResult) : Event :=
  ⟨.debug, "Pass finished",
    [("pass", .natural p.pass), ("outcome", .text p.outcome), ("failed", .bool result.isFailure)]⟩

def reportEvent (r : Report) : Event :=
  ⟨.info, "Build finished",
    [("passes", .natural r.summary.totalPasses),
     ("violations", .natural r.summary.totalViolations), ("passed", .bool r.summary.passed)]⟩

/-- The passes and violations so far. -/
structure Progress where
  passes : List Report.Pass
  violations : List Report.Entry

/-- Runs a pass for each delivery. The first delivery or emission that fails ends the build. -/
def runFrom {σ : Type} (rules : Rules) (effects : Effects σ) :
    List (Delivery σ) → Progress → Pipeline → σ → Except Error Progress × Pipeline × σ
  | [], progress, p, world => (.ok progress, p, world)
  | delivery :: deliveries, progress, p, world =>
    match delivery world with
    | (.error e, world) => (.error e, p, world)
    | (.ok batch, world) =>
      match p.pass rules effects batch.declarations world with
      | (.error e, p, world) => (.error e, p, world)
      | (.ok result, p, world) =>
        let summary := passOf (progress.passes.length + 1) batch result
        let progress : Progress :=
          ⟨progress.passes ++ [summary], progress.violations ++ entriesOf result⟩
        runFrom rules effects deliveries progress p (effects.log (passEvent summary result) world)

/-- A build over deliveries, with the pipeline that an earlier build left. -/
def run {σ : Type} (rules : Rules) (effects : Effects σ) (timestamp : String)
    (deliveries : List (Delivery σ)) (p : Pipeline) (world : σ) :
    Except Error Report × Pipeline × σ :=
  let (p, world) := p.reset effects world
  match runFrom rules effects deliveries ⟨[], []⟩ p world with
  | (.error e, p, world) => (.error e, p, world)
  | (.ok progress, p, world) =>
    let report := Report.of timestamp progress.passes progress.violations
    (.ok report, p, effects.log (reportEvent report) world)

end Build

end ComponentWiring
