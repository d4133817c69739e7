import ComponentWiring.Report.Text
import ComponentWiring.Text.Split

/-! # Requests on the command line

Arguments are taken from left to right. The first thing that cannot be meant refuses them all,
unless the help text or the version was asked for in front of it.

* `Options`: what is asked of a build.
* `Request`: what arguments ask for.
* `Word`: what an argument says by itself.
* `Request.ofArguments?`: the request of arguments.
-/

namespace ComponentWiring.CommandLine
set_option autoImplicit false

/-! ## Options -/

/-- What is asked of a build; what is not given is left to the settings. -/
structure Options where
  settingsFile : Option String := none
  format : Option Report.Format := none
  outputDirectory : Option String := none
  dryRun : Bool := false
  level : Option String := none
  inputs : List String := []
  deriving DecidableEq

/-- What arguments ask for. -/
inductive Request where
  | build (options : Options)
  | help
  | version
  deriving DecidableEq

/-- An option that has a value. -/
inductive Choice where
  | settingsFile
  | format
  | outputDirectory
  | level
  deriving DecidableEq

/-- An option without a value. -/
inductive Switch where
  | dryRun
  | help
  | version
  deriving DecidableEq

namespace Options

/-- A first value of an option. -/
def once? {α : Type} (before : Option α) (given : α) : Option (Option α) :=
  match before with
  | none => some (some given)
  | some _ => none

def path? (value : String) : Option String := if value = "" then none else some value

/-- The options with a value, unless the option cannot have it or has one already. -/
def choose? (choice : Choice) (value : String) (o : Options) : Option Options :=
  match choice with
  | .settingsFile => do pure { o with settingsFile := ← once? o.settingsFile (← path? value) }
  | .format => do
    let format ← (Report.Format.ofName value).toOption
    pure { o with format := ← once? o.format format }
  | .outputDirectory => do
    pure { o with outputDirectory := ← once? o.outputDirectory (← path? value) }
  | .level => do pure { o with level := ← once? o.level value }

def addInputs? (inputs : List String) (o : Options) : Option Options := do
  pure { o with inputs := o.inputs ++ (← inputs.mapM path?) }

end Options

/-! ## Words -/

/-- What an argument says by itself: the end of all options, an option without a value, an option
with its value, an option whose value is the next argument, or an input. -/
inductive Word where
  | endOfOptions
  | switch (switch : Switch)
  | chosen (choice : Choice) (value : String)
  | awaiting (choice : Choice)
  | input (text : String)
  | unknown
  deriving DecidableEq

namespace Word

/-- The option with a long name and without a value behind it. -/
def ofName (name : String) : Word :=
  match name with
  | "config" => awaiting .settingsFile
  | "format" => awaiting .format
  | "output-dir" => awaiting .outputDirectory
  | "log-level" => awaiting .level
  | "no-emit" => switch .dryRun
  | "help" => switch .help
  | "version" => switch .version
  | _ => unknown

def ofLetter (letter : Char) : Word :=
  match letter with
  | 'c' => awaiting .settingsFile
  | 'f' => awaiting .format
  | 'o' => awaiting .outputDirectory
  | 'h' => switch .help
  | 'V' => switch .version
  | _ => unknown

/-- A long name, where an equals sign stands in front of a value. -/
def ofLong (text : List Char) : Word :=
  let name := ofName (String.ofList (text.takeWhile (· ≠ '=')))
  match text.dropWhile (· ≠ '='), name with
  | _ :: value, .awaiting choice => chosen choice (String.ofList value)
  | _ :: _, _ => unknown
  | [], name => name

/-- A short name and what follows it: the value, with or without an equals sign in front of it. The
options without a value end the reading, so nothing behind them counts. -/
def ofShort (letter : Char) (text : List Char) : Word :=
  match ofLetter letter, text with
  | .awaiting choice, '=' :: value => chosen choice (String.ofList value)
  | .awaiting choice, c :: value => chosen choice (String.ofList (c :: value))
  | word, _ => word

/-- What an argument says. A dash alone is an input. -/
def ofArgument (argument : String) : Word :=
  match argument.toList with
  | ['-', '-'] => endOfOptions
  | '-' :: '-' :: text => ofLong text
  | '-' :: letter :: text => ofShort letter text
  | _ => input argument

def input? : Word → Option String
  | input text => some text
  | _ => none

end Word

/-! ## Requests -/

namespace Request

/-- The request of arguments behind others that gave options. -/
def from? (o : Options) : List String → Option Request
  | [] => some (.build o)
  | argument :: rest =>
    match Word.ofArgument argument with
    | .endOfOptions => (o.addInputs? rest).map .build
    | .switch .help => some .help
    | .switch .version => some .version
    | .switch .dryRun => if o.dryRun then none else from? { o with dryRun := true } rest
    | .chosen choice value =>
      match o.choose? choice value with
      | some o => from? o rest
      | none => none
    | .awaiting choice =>
      match rest with
      | [] => none
      | next :: rest =>
        match ((Word.ofArgument next).input?).bind fun value => o.choose? choice value with
        | some o => from? o rest
        | none => none
    | .input text =>
      match o.addInputs? [text] with
      | some o => from? o rest
      | none => none
    | .unknown => none

/-- The request of arguments, unless they are refused. -/
def ofArguments? (arguments : List String) : Option Request := from? {} arguments

end Request

end ComponentWiring.CommandLine
