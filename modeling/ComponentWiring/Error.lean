import ComponentWiring.Data.Mismatch

/-! # Errors

* `DocumentFault`: why a text is no declaration document.
* `Error`: everything that can end an operation.
* `Error.message`: the text of an error.
* `Error.sources`: the texts of the errors behind it.
* `Error.terminalText`: the error as it is shown at the end of a run.
-/

namespace ComponentWiring
open Data
set_option autoImplicit false

/-- Why a text is no declaration document: it is no TOML, which shows in the given line, or it
holds something else than declarations. -/
inductive DocumentFault where
  | notToml (line : Nat)
  | misfit (mismatch : Mismatch)

def notTomlMessage (line : Nat) : String := s!"TOML parse error at line {line}"

def DocumentFault.message : DocumentFault → String
  | .notToml line => notTomlMessage line
  | .misfit mismatch => mismatch.message

/-- Why a document could not be delivered. -/
inductive ScanReason where
  | told (message : String)
  | document (fault : DocumentFault)

def ScanReason.message : ScanReason → String
  | .told message => message
  | .document fault => fault.message

/-- Everything that can end an operation. A `cause` is the text of the error behind this one. -/
inductive Error where
  | plainIo (cause : String)
  | io (message : String) (cause : Option String)
  | json (cause : String)
  | toml (cause : String)
  | invalidArgument (message : String)
  | config (message : String)
  | configuration (message : String) (cause : Option String)
  | scan (path : String) (reason : ScanReason)
  | emit (message : String) (cause : Option String)
  | internal (message : String)

namespace Error

def message : Error → String
  | plainIo cause => s!"I/O error: {cause}"
  | io message _ => s!"I/O error: {message}"
  | json cause => s!"JSON parsing error: {cause}"
  | toml cause => s!"TOML parsing error: {cause}"
  | invalidArgument message => s!"Invalid argument: {message}"
  | config message => s!"Configuration error: {message}"
  | configuration message _ => s!"Configuration error: {message}"
  | scan path reason => s!"Scan error in {path}: {reason.message}"
  | emit message _ => s!"Emit error: {message}"
  | internal message => s!"Internal error: {message}"

/-- The texts of the errors behind this one, nearest first. -/
def sources : Error → List String
  | plainIo cause => [cause]
  | io _ cause => cause.toList
  | json cause => [cause]
  | toml cause => [cause]
  | configuration _ cause => cause.toList
  | emit _ cause => cause.toList
  | _ => []

/-- Whether the error tells of a fault of the program itself. -/
def isInternal : Error → Bool
  | internal _ => true
  | _ => false

/-- The text of an error on the terminal, where every fault of a document counts as a fault of its
TOML text. -/
def terminalMessage : Error → String
  | scan path (.document (.misfit mismatch)) =>
    s!"Scan error in {path}: TOML parse error: {mismatch.message}"
  | e => e.message

/-- What was being done, the error, and the errors behind it. -/
def terminalText (doing : String) (e : Error) : String :=
  ": ".intercalate (doing :: e.terminalMessage :: e.sources)

end Error

/-! ## Telling what was being done

An error of the system below is put behind an error of this program, whose text tells first what
was being done. -/

namespace Context

/-- What was being done, and why it failed. -/
def told (doing cause : String) : String := s!"{doing}: {cause}"

def io (doing cause : String) : Error := .io (told doing cause) (some cause)

def configuration (doing cause : String) : Error := .configuration (told doing cause) (some cause)

def emit (doing cause : String) : Error := .emit (told doing cause) (some cause)

/-- A failure to scan a path; the cause is told only in the text. -/
def scan (path cause : String) : Error := .scan path (.told cause)

end Context

/-! ## Results -/

theorem bind_eq_ok_iff {ε α β : Type} {x : Except ε α} {f : α → Except ε β} {y : β} :
    x >>= f = .ok y ↔ ∃ a, x = .ok a ∧ f a = .ok y := by
  cases x with
  | error e => simp [bind, Except.bind]
  | ok a => simp [bind, Except.bind]

theorem map_eq_ok_iff {ε α β : Type} {x : Except ε α} {f : α → β} {y : β} :
    x.map f = .ok y ↔ ∃ a, x = .ok a ∧ f a = y := by
  cases x with
  | error e => simp [Except.map]
  | ok a => simp [Except.map]

theorem mapError_eq_ok_iff {ε ε' α : Type} {f : ε → ε'} {x : Except ε α} {y : α} :
    x.mapError f = .ok y ↔ x = .ok y := by
  cases x with
  | error e => exact iff_of_false (fun h => by cases h) (fun h => by cases h)
  | ok a => constructor <;> rintro ⟨⟩ <;> rfl

theorem eq_ok_of_toOption {ε α : Type} {result : Except ε α} {x : α}
    (h : result.toOption = some x) : result = .ok x := by
  cases result with
  | error e => cases h
  | ok y =>
    cases h
    rfl

end ComponentWiring
