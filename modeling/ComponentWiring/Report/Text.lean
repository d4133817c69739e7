import ComponentWiring.Json.Writer
import ComponentWiring.Report.Basic
import ComponentWiring.Text.Lowercase

/-! # Reports for people and for tools

* `Report.Format`: which of the two is wanted.
* `Report.human`: the report as text.
* `Report.json`: the report as JSON.
-/

namespace ComponentWiring.Report
open Data
set_option autoImplicit false

/-- Whom a report is for. -/
inductive Format where
  | human
  | json
  deriving DecidableEq

namespace Format

def name : Format → String
  | human => "human"
  | json => "json"

/-- The format of a name given in any case; text is another name of the human one. -/
def ofName (text : String) : Except Error Format :=
  let lower := Text.lowercase text
  if lower = "human" ∨ lower = "text" then .ok human
  else if lower = "json" then .ok json
  else .error (.invalidArgument s!"Unknown report format: {lower}. Use human or json")

def toValue (format : Format) : Value := .text format.name

def read (form : Form) : Reader Format :=
  choice form "ReportFormat" [("human", human), ("json", json)]

end Format

/-! ## For people -/

def summaryText (s : Summary) : String :=
  let status := if s.passed then "PASSED" else "FAILED"
  "--- Summary ---\n" ++
  s!"Passes:           {s.totalPasses}\n" ++
  s!"  Emitted:        {s.emittedPasses}\n" ++
  s!"Components:       {s.componentsOrdered}\n" ++
  s!"Total Violations: {s.totalViolations}\n" ++
  s!"  Declaration:    {s.declarationCount}\n" ++
  s!"  Cycles:         {s.cycleCount}\n" ++
  s!"\nStatus: {status}\n\n"

def passText (p : Pass) : String :=
  let source := p.source.getD "-"
  let identities := if p.identities = [] then "" else ": " ++ Text.join ", " p.identities
  s!"  #{p.pass} {p.outcome} ({p.declarations} declarations, {source})" ++ identities ++ "\n"

def entryText (e : Entry) : String :=
  let location := match e.location with
    | some location => s!" at {location}"
    | none => ""
  let hint := match e.suggestion with
    | some suggestion => s!"      hint: {suggestion}\n"
    | none => ""
  s!"  [{e.severity.label}] {e.id} {e.message}" ++ location ++ "\n" ++ hint

/-- A headed part with a line for each item; without items it is left out. -/
def part {α : Type} (head : String) (line : α → String) (items : List α) : String :=
  if items.isEmpty then "" else head ++ String.join (items.map line) ++ "\n"

def human (r : Report) : String :=
  "=== Influx Build Report ===\n\n" ++ s!"Timestamp: {r.timestamp}\n\n" ++ summaryText r.summary ++
  part "--- Passes ---\n" passText r.passes ++ part "--- Violations ---\n" entryText r.violations

/-! ## For tools -/

def json (r : Report) : String := Json.pretty r.toValue

def render (format : Format) (r : Report) : String :=
  match format with
  | .human => r.human
  | .json => r.json

end ComponentWiring.Report
