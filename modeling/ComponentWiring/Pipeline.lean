import ComponentWiring.Graph.Builder
import ComponentWiring.Graph.Ordering
import ComponentWiring.Validation

/-! # Passes over declarations

A pass takes the fresh declarations of a batch, checks them, extends the graph by them, orders the
graph and hands the order out. The world outside is a value of any type, which the effects act on.

* `EmitSummary`: how many artifacts an emission wrote and skipped.
* `Effects`: what a pass does to the world.
* `Rules`: how declarations are checked and graphs are ordered.
* `Pipeline`: the state between passes.
* `Pipeline.pass`: one pass.
-/

namespace ComponentWiring
open Data
set_option autoImplicit false

/-- How many artifacts an emission wrote, and how many it found written. -/
structure EmitSummary where
  written : Nat
  skipped : Nat
  deriving DecidableEq

namespace EmitSummary

def zero : EmitSummary := ⟨0, 0⟩

def total (s : EmitSummary) : Nat := s.written + s.skipped

def addWritten (s : EmitSummary) : EmitSummary := { s with written := s.written + 1 }

def addSkipped (s : EmitSummary) : EmitSummary := { s with skipped := s.skipped + 1 }

def toValue (s : EmitSummary) : Value :=
  .record [("written", .integer s.written), ("skipped", .integer s.skipped)]

/-- The fields of a summary that were read. -/
structure Draft where
  written : Option Nat := none
  skipped : Option Nat := none

def shape : Shape Draft EmitSummary where
  name := "EmitSummary"
  fields :=
    [⟨"written", fun v d => do pure { d with written := some (← Reader.count v) }, false⟩,
     ⟨"skipped", fun v d => do pure { d with skipped := some (← Reader.count v) }, false⟩]
  draft := {}
  finish := fun d => do
    pure ⟨← required "written" d.written, ← required "skipped" d.skipped⟩

def read : Reader EmitSummary := structured .json shape

end EmitSummary

/-! ## What a pass works with -/

/-- What a pass does to the world: it hands out an order, which may fail, it reports violations, and
it logs events. -/
structure Effects (σ : Type) where
  emit : List Identity → σ → Except Error EmitSummary × σ
  report : Violation → σ → σ
  log : Event → σ → σ

namespace Effects

def logAll {σ : Type} (effects : Effects σ) (events : List Event) (world : σ) : σ :=
  events.foldl (fun world event => effects.log event world) world

end Effects

/-- How declarations are checked and graphs are ordered. -/
structure Rules where
  validator : Validator
  order : Graph → Logged Outcome

/-- The rules of the program itself. -/
def Rules.standard : Rules := ⟨Validator.declarations, Graph.order⟩

/-! ## Results and counters -/

/-- What a pass came to. -/
inductive PassResult where
  | noWork
  | emitted (order : List Identity)
  | cycle (path : List Identity)
  | invalid (violations : List DeclarationViolation)
  deriving DecidableEq

namespace PassResult

def name : PassResult → String
  | noWork => "no_work"
  | emitted _ => "emitted"
  | cycle _ => "cycle"
  | invalid _ => "invalid"

/-- Whether a result stands for a fault of the declarations. -/
def isFailure : PassResult → Bool
  | cycle _ => true
  | invalid _ => true
  | _ => false

end PassResult

/-- The counts since the last reset. -/
structure Counters where
  passes : Nat
  noWorkPasses : Nat
  invalidPasses : Nat
  resolutions : Nat
  insertedDeclarations : Nat
  emissions : Nat
  cycles : Nat
  deriving DecidableEq

namespace Counters

def zero : Counters := ⟨0, 0, 0, 0, 0, 0, 0⟩

def toValue (c : Counters) : Value :=
  .record
    [("passes", .integer c.passes), ("no_work_passes", .integer c.noWorkPasses),
     ("invalid_passes", .integer c.invalidPasses), ("resolutions", .integer c.resolutions),
     ("inserted_declarations", .integer c.insertedDeclarations),
     ("emissions", .integer c.emissions), ("cycles", .integer c.cycles)]

end Counters

/-! ## The pipeline -/

/-- The state between passes. -/
structure Pipeline where
  builder : Builder
  counters : Counters
  deriving DecidableEq

namespace Pipeline

def fresh : Pipeline := ⟨Builder.empty, Counters.zero⟩

/-- The first declaration in a batch of each identity that was not seen. -/
def unseen : Seen → List Declaration → List Declaration
  | _, [] => []
  | seen, d :: batch =>
    if seen.has d.identity then unseen seen batch
    else d :: unseen (seen.insert d.identity) batch

def addEvents : Builder → List Declaration → List Event
  | _, [] => []
  | builder, d :: ds => builder.addEvent d :: addEvents (builder.add d) ds

/-- The number of declarations that a builder takes, in order. -/
def takenCount : Builder → List Declaration → Nat
  | _, [] => 0
  | builder, d :: ds => (if builder.takes d then 1 else 0) + takenCount (builder.add d) ds

/-- Reports violations of declarations in order, each after a warning. -/
def reportAll {σ : Type} (effects : Effects σ) (violations : List DeclarationViolation)
    (world : σ) : σ :=
  violations.foldl
    (fun world v =>
      effects.report v.toViolation
        (effects.log
          ⟨.warn, "Invalid component declaration",
            [("identity", .text v.identity.name), ("reason", .text v.reason.code)]⟩ world))
    world

/-- Orders the graph and hands the order out, or reports the cycle. -/
def resolve {σ : Type} (rules : Rules) (effects : Effects σ) (p : Pipeline) (world : σ) :
    Except Error PassResult × Pipeline × σ :=
  let pass := p.counters.passes
  let p := { p with counters := { p.counters with resolutions := p.counters.resolutions + 1 } }
  let outcome := rules.order p.builder.graph
  let world := effects.logAll outcome.events world
  match outcome.value with
  | .ordered order =>
    match effects.emit order world with
    | (.error e, world) => (.error e, p, world)
    | (.ok summary, world) =>
      let counters := { p.counters with emissions := p.counters.emissions + 1 }
      let event : Event :=
        ⟨.info, "Emitted component order",
          [("pass", .natural pass), ("components", .natural order.length),
           ("written", .natural summary.written), ("skipped", .natural summary.skipped)]⟩
      (.ok (.emitted order), { p with counters }, effects.log event world)
  | .cycle path =>
    let violation : CycleViolation := ⟨path⟩
    let event : Event :=
      ⟨.warn, "Dependency cycle detected",
        [("pass", .natural pass), ("cycle", .text violation.message)]⟩
    let world := effects.report violation.toViolation (effects.log event world)
    let counters := { p.counters with cycles := p.counters.cycles + 1 }
    (.ok (.cycle path), { p with counters }, world)

/-- Takes the fresh declarations of a batch: either all of them enter the graph, or, if one is
invalid, none. -/
def take {σ : Type} (rules : Rules) (effects : Effects σ) (taken : List Declaration) (p : Pipeline)
    (world : σ) : Except Error PassResult × Pipeline × σ :=
  let checked := rules.validator.checkAll taken
  let world := effects.logAll checked.events world
  if checked.value ≠ [] then
    let counters := { p.counters with invalidPasses := p.counters.invalidPasses + 1 }
    (.ok (.invalid checked.value), { p with counters }, reportAll effects checked.value world)
  else
    let world := effects.logAll (addEvents p.builder taken) world
    let inserted := p.counters.insertedDeclarations + takenCount p.builder taken
    let counters := { p.counters with insertedDeclarations := inserted }
    resolve rules effects ⟨p.builder.addAll taken, counters⟩ world

def pass {σ : Type} (rules : Rules) (effects : Effects σ) (batch : List Declaration) (p : Pipeline)
    (world : σ) : Except Error PassResult × Pipeline × σ :=
  let p := { p with counters := { p.counters with passes := p.counters.passes + 1 } }
  let number := p.counters.passes
  let taken := unseen p.builder.seen batch
  if taken = [] then
    let event : Event :=
      ⟨.debug, "No new declarations",
        [("pass", .natural number), ("delivered", .natural batch.length)]⟩
    let counters := { p.counters with noWorkPasses := p.counters.noWorkPasses + 1 }
    (.ok .noWork, { p with counters }, effects.log event world)
  else
    let event : Event :=
      ⟨.debug, "Processing pass",
        [("pass", .natural number), ("delivered", .natural batch.length),
         ("fresh", .natural taken.length)]⟩
    take rules effects taken p (effects.log event world)

def reset {σ : Type} (effects : Effects σ) (_p : Pipeline) (world : σ) : Pipeline × σ :=
  (fresh, effects.log ⟨.debug, "Pipeline reset", []⟩ world)

end Pipeline

end ComponentWiring
