import VersionedTypes.Command.Filter
import VersionedTypes.Command.Help
import VersionedTypes.Command.Input
import VersionedTypes.Dump
import VersionedTypes.Exchange.Encoding
import VersionedTypes.Exchange.Formats
import VersionedTypes.Report

/-!
# Execution of a command

Every command loads its inputs, and stops if they cannot be read or if there is any mistake in the
declarations. What it prints comes from the universe alone.

* `Error`, `Error.message`: why a command fails;
* `Inputs.resolution`, `Inputs.cleanUniverse`: the declarations resolved, and without mistakes;
* `Task.output`, **`Invocation.execute`**: what a command prints; `Inputs.events`: what it logs;
* `Ending`, **`run`**: the whole program.
-/

namespace VersionedTypes.Command

/-! ## Failures -/

/-- Why a command fails. -/
inductive Error where
  | unreadable (label : String) (cause : InputError)
  | invalid (label : String) (cause : Json.ReadError)
  /-- There are mistakes in the declarations. -/
  | rejected (report : String)
  | unknownDomain (tag : String)
  | unknownTransform (name : String)
  | fault (f : Fault)
  | cut (c : CutCharacter)
  deriving DecidableEq

namespace Error

/-- Why the command fails, in words. -/
def message : Error → String
  | unreadable label cause => s!"failed to read '{label}': {cause.message}"
  | invalid label cause => s!"{label}: {Declaration.parseErrorMessage cause}"
  | rejected report => report
  | unknownDomain tag => s!"domain `{tag}` is not defined"
  | unknownTransform name => s!"transform `{name}` is not defined"
  | fault f => f.message
  | cut c => s!"byte {c.range.stop} of the source is not at the end of a character"

/-- What is written on the error stream. Reports speak for themselves. -/
def text (e : Error) : String :=
  match e with
  | rejected report => report
  | fault _ => e.message ++ "\n"
  | _ => s!"error: {e.message}\n"

/-- Mistakes in the input end the program with one, faults of its own with another number. -/
def exitCode : Error → Nat
  | fault _ | cut _ => 101
  | _ => 1

end Error

/-! ## Loading -/

/-- The text of an input. -/
def Input.text (i : Input) : Except Error String := i.content.mapError (.unreadable i.label)

namespace Inputs

/-- The declarations, resolved. -/
def resolution (i : Inputs) : Except Error Resolution := do
  let text ← i.declarations.text
  let ds ← (Declaration.parse text).mapError (.invalid i.declarations.label)
  (Resolution.ofDeclarations ds).mapError .fault

/-- The events up to the end of the resolution, if there is one. -/
def events (i : Inputs) : List Event :=
  match i.resolution with
  | .ok r => resolutionEvents r ++ [.loaded i.declarations.label r]
  | .error _ => []

/-- The report on mistakes, which names the source rather than the declarations. -/
def report (i : Inputs) (colored : Bool) (source : Option String) (ds : List Diagnostic) : Error :=
  let label := (i.source.getD i.declarations).label
  match Report.render { source, path := some label, colored } ds with
  | .ok text => .rejected text
  | .error c => .cut c

/-- The universe of declarations without mistakes. -/
def cleanUniverse (i : Inputs) (colored : Bool) : Except Error Universe := do
  let r ← i.resolution
  let source ← i.source.mapM Input.text
  if r.diagnostics.isEmpty then pure r.toUniverse else throw (i.report colored source r.diagnostics)

end Inputs

/-! ## Output -/

/-- How dumps look. -/
def View.options (v : View) (colored : Bool) : Dump.Options :=
  { spans := v.spans, annotations := v.annotations, palette := .ofBool colored }

/-- A JSON value on lines of its own. -/
def jsonLines (v : Json) : String := v.pretty ++ "\n"

/-- What a command prints about a universe. -/
def Task.output (colored : Bool) (u : Universe) : Task → Except Error String
  | .check => .ok ""
  | .dump none v =>
    .ok (if v.json then jsonLines (.array (u.domains.values.map Domain.toJson))
      else u.dump (v.options colored))
  | .dump (some tag) v =>
    match u.domain? tag with
    | some d => .ok (if v.json then jsonLines d.toJson else d.dump (v.options colored))
    | none => .error (.unknownDomain tag)
  | .transform none v =>
    .ok (if v.json then jsonLines (.array (u.transforms.map Transform.toJson))
      else Dump.spaced (u.transforms.map (Transform.dump (v.options colored))))
  | .transform (some name) v =>
    match u.transform? name with
    | some t => .ok (if v.json then jsonLines t.toJson else t.dump (v.options colored))
    | none => .error (.unknownTransform name)

/-- What a command prints. -/
def Invocation.execute (i : Invocation) (terminal : Bool) (inputs : Inputs) :
    Except Error String := do
  let colored := i.color.isOn terminal
  let u ← inputs.cleanUniverse colored
  i.task.output colored u

/-! ## The program -/

/-- How the program ends, and what it has written until then. -/
structure Ending where
  exitCode : Nat
  output : String := ""
  errors : String := ""
  log : List String := []
  deriving DecidableEq

/-- Why a command line is refused, in words. -/
def Refusal.message : Refusal → String
  | missingCommand => "a command is required"
  | unknownCommand => "unrecognized command"
  | unknownParameter => "unexpected argument"
  | missingFile => "the file with the declarations is missing"
  | repeatedParameter => "an argument is used more than once"
  | invalidValue => "an argument has no valid value"
  | unwantedValue => "a flag has a value"

/-- The end of a program that has nothing to execute. -/
def Stop.ending : Stop → Ending
  | help topic => { exitCode := 0, output := topic.text }
  | refused .missingCommand => { exitCode := 2, errors := Topic.program.text }
  | refused r => { exitCode := 2, errors := s!"error: {r.message}\n" }

/-- The end of a command. -/
def Invocation.ending (i : Invocation) (terminal : Bool) (setting : Option String)
    (inputs : Inputs) : Ending :=
  let filter := Filter.ofSettings i.verbosity setting
  let log := (inputs.events.filter filter.admits).map Event.line
  match i.execute terminal inputs with
  | .ok output => { exitCode := 0, output, log }
  | .error e => { exitCode := e.exitCode, errors := e.text, log }

/-- Run the program. `read` reads an input, `setting` is the text that selects the events to log. -/
def run {m : Type → Type} [Monad m] (read : Place → m (Except InputError String)) (terminal : Bool)
    (setting : Option String) (arguments : List String) : m Ending :=
  match parse arguments with
  | .ok i => do
    let inputs ← Inputs.gather read i
    pure (i.ending terminal setting inputs)
  | .error stop => pure stop.ending

end VersionedTypes.Command
