import ComponentWiring.Violation

/-! # Build reports

* `Report.Entry`: a violation as texts.
* `Report.Pass`: what one pass delivered and came to.
* `Report.Summary`: the counts over all passes.
* `Report`: a time stamp, the summary, the passes and the violations.
* `Report.of`: the report on passes and violations.
-/

namespace ComponentWiring
open Data
set_option autoImplicit false

/-! ## Entries -/

/-- A violation as texts. -/
structure Report.Entry where
  id : String
  reason : String
  category : Category
  severity : Severity
  identities : List String
  location : Option String
  message : String
  suggestion : Option String
  deriving DecidableEq

namespace Report.Entry

def of (v : Violation) : Entry where
  id := v.id
  reason := v.reason
  category := v.category
  severity := v.severity
  identities := v.identities.map (·.name)
  location := v.location.map (·.text)
  message := v.message
  suggestion := v.suggestion

def textOrNull : Option String → Value
  | some s => .text s
  | none => .null

def toValue (e : Entry) : Value :=
  .record
    [("id", .text e.id), ("reason", .text e.reason), ("category", e.category.toValue),
     ("severity", e.severity.toValue), ("identities", .list (e.identities.map .text)),
     ("location", textOrNull e.location), ("message", .text e.message),
     ("suggestion", textOrNull e.suggestion)]

/-- The fields of an entry that were read. -/
structure Draft where
  id : Option String := none
  reason : Option String := none
  category : Option Category := none
  severity : Option Severity := none
  identities : Option (List String) := none
  location : Option String := none
  message : Option String := none
  suggestion : Option String := none

def shape : Shape Draft Entry where
  name := "ViolationEntry"
  fields :=
    [⟨"id", fun v d => do pure { d with id := some (← Reader.string v) }, false⟩,
     ⟨"reason", fun v d => do pure { d with reason := some (← Reader.string v) }, false⟩,
     ⟨"category", fun v d => do pure { d with category := some (← Category.read v) }, false⟩,
     ⟨"severity", fun v d => do pure { d with severity := some (← Severity.read v) }, false⟩,
     ⟨"identities", fun v d => do
        pure { d with identities := some (← Reader.list Reader.string v) }, false⟩,
     ⟨"location", fun v d => do
        pure { d with location := (← Reader.optional Reader.string v) }, false⟩,
     ⟨"message", fun v d => do pure { d with message := some (← Reader.string v) }, false⟩,
     ⟨"suggestion", fun v d => do
        pure { d with suggestion := (← Reader.optional Reader.string v) }, false⟩]
  draft := {}
  finish := fun d => do
    pure
      { id := ← required "id" d.id
        reason := ← required "reason" d.reason
        category := ← required "category" d.category
        severity := ← required "severity" d.severity
        identities := ← required "identities" d.identities
        location := d.location
        message := ← required "message" d.message
        suggestion := d.suggestion }

def read : Reader Entry := structured .json shape

end Report.Entry

/-! ## Passes -/

/-- What one pass delivered and came to. -/
structure Report.Pass where
  pass : Nat
  source : Option String
  declarations : Nat
  outcome : String
  identities : List String
  violationCount : Nat
  deriving DecidableEq

namespace Report.Pass

def toValue (p : Pass) : Value :=
  .record
    [("pass", .integer p.pass), ("source", Entry.textOrNull p.source),
     ("declarations", .integer p.declarations), ("outcome", .text p.outcome),
     ("identities", .list (p.identities.map .text)),
     ("violation_count", .integer p.violationCount)]

/-- The fields of a pass that were read. -/
structure Draft where
  pass : Option Nat := none
  source : Option String := none
  declarations : Option Nat := none
  outcome : Option String := none
  identities : Option (List String) := none
  violationCount : Option Nat := none

def shape : Shape Draft Pass where
  name := "PassSummary"
  fields :=
    [⟨"pass", fun v d => do pure { d with pass := some (← Reader.count v) }, false⟩,
     ⟨"source", fun v d => do
        pure { d with source := (← Reader.optional Reader.string v) }, false⟩,
     ⟨"declarations", fun v d => do
        pure { d with declarations := some (← Reader.count v) }, false⟩,
     ⟨"outcome", fun v d => do pure { d with outcome := some (← Reader.string v) }, false⟩,
     ⟨"identities", fun v d => do
        pure { d with identities := some (← Reader.list Reader.string v) }, false⟩,
     ⟨"violation_count", fun v d => do
        pure { d with violationCount := some (← Reader.count v) }, false⟩]
  draft := {}
  finish := fun d => do
    pure
      { pass := ← required "pass" d.pass
        source := d.source
        declarations := ← required "declarations" d.declarations
        outcome := ← required "outcome" d.outcome
        identities := ← required "identities" d.identities
        violationCount := ← required "violation_count" d.violationCount }

def read : Reader Pass := structured .json shape

end Report.Pass

/-! ## Summaries -/

/-- The counts over all passes. -/
structure Report.Summary where
  totalPasses : Nat
  emittedPasses : Nat
  totalViolations : Nat
  declarationCount : Nat
  cycleCount : Nat
  componentsOrdered : Nat
  passed : Bool
  deriving DecidableEq

namespace Report.Summary

def toValue (s : Summary) : Value :=
  .record
    [("total_passes", .integer s.totalPasses), ("emitted_passes", .integer s.emittedPasses),
     ("total_violations", .integer s.totalViolations),
     ("declaration_count", .integer s.declarationCount), ("cycle_count", .integer s.cycleCount),
     ("components_ordered", .integer s.componentsOrdered), ("passed", .bool s.passed)]

/-- The fields of a summary that were read. -/
structure Draft where
  totalPasses : Option Nat := none
  emittedPasses : Option Nat := none
  totalViolations : Option Nat := none
  declarationCount : Option Nat := none
  cycleCount : Option Nat := none
  componentsOrdered : Option Nat := none
  passed : Option Bool := none

def shape : Shape Draft Summary where
  name := "BuildSummary"
  fields :=
    [⟨"total_passes", fun v d => do
        pure { d with totalPasses := some (← Reader.count v) }, false⟩,
     ⟨"emitted_passes", fun v d => do
        pure { d with emittedPasses := some (← Reader.count v) }, false⟩,
     ⟨"total_violations", fun v d => do
        pure { d with totalViolations := some (← Reader.count v) }, false⟩,
     ⟨"declaration_count", fun v d => do
        pure { d with declarationCount := some (← Reader.count v) }, false⟩,
     ⟨"cycle_count", fun v d => do pure { d with cycleCount := some (← Reader.count v) }, false⟩,
     ⟨"components_ordered", fun v d => do
        pure { d with componentsOrdered := some (← Reader.count v) }, false⟩,
     ⟨"passed", fun v d => do pure { d with passed := some (← Reader.boolean v) }, false⟩]
  draft := {}
  finish := fun d => do
    pure
      { totalPasses := ← required "total_passes" d.totalPasses
        emittedPasses := ← required "emitted_passes" d.emittedPasses
        totalViolations := ← required "total_violations" d.totalViolations
        declarationCount := ← required "declaration_count" d.declarationCount
        cycleCount := ← required "cycle_count" d.cycleCount
        componentsOrdered := ← required "components_ordered" d.componentsOrdered
        passed := ← required "passed" d.passed }

def read : Reader Summary := structured .json shape

end Report.Summary

/-! ## Reports -/

/-- A time stamp, the summary, the passes and the violations of a build. -/
structure Report where
  timestamp : String
  summary : Report.Summary
  passes : List Report.Pass
  violations : List Report.Entry
  deriving DecidableEq

namespace Report

/-- The outcome of a pass that handed out an order. -/
def emittedName : String := "emitted"

def countOf (category : Category) (violations : List Entry) : Nat :=
  violations.countP (·.category = category)

/-- The number of components in the last order that was handed out. -/
def lastOrdered (passes : List Pass) : Nat :=
  match passes.reverse.find? (·.outcome = emittedName) with
  | some p => p.identities.length
  | none => 0

/-- The report on passes and violations; a build passes without a violation that is an error. -/
def of (timestamp : String) (passes : List Pass) (violations : List Entry) : Report where
  timestamp
  summary :=
    { totalPasses := passes.length
      emittedPasses := passes.countP (·.outcome = emittedName)
      totalViolations := violations.length
      declarationCount := countOf .declaration violations
      cycleCount := countOf .structural violations
      componentsOrdered := lastOrdered passes
      passed := !violations.any (·.severity = .error) }
  passes
  violations

def toValue (r : Report) : Value :=
  .record
    [("timestamp", .text r.timestamp), ("summary", r.summary.toValue),
     ("passes", .list (r.passes.map (·.toValue))),
     ("violations", .list (r.violations.map (·.toValue)))]

/-- The fields of a report that were read. -/
structure Draft where
  timestamp : Option String := none
  summary : Option Summary := none
  passes : Option (List Pass) := none
  violations : Option (List Entry) := none

def shape : Shape Draft Report where
  name := "BuildReport"
  fields :=
    [⟨"timestamp", fun v d => do pure { d with timestamp := some (← Reader.string v) }, false⟩,
     ⟨"summary", fun v d => do pure { d with summary := some (← Summary.read v) }, false⟩,
     ⟨"passes", fun v d => do
        pure { d with passes := some (← Reader.list Pass.read v) }, false⟩,
     ⟨"violations", fun v d => do
        pure { d with violations := some (← Reader.list Entry.read v) }, false⟩]
  draft := {}
  finish := fun d => do
    pure
      { timestamp := ← required "timestamp" d.timestamp
        summary := ← required "summary" d.summary
        passes := ← required "passes" d.passes
        violations := ← required "violations" d.violations }

def read : Reader Report := structured .json shape

end Report

end ComponentWiring
