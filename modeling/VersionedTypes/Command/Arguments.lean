import VersionedTypes.Command.Invocation

/-!
# The command line

The first word names a command; its parameters follow in any order. A value stands behind an equals
sign or is the next word, short switches can share a word, and behind two dashes all words are
operands.

A value is looked at when the next parameter that the command has comes up, or at the end. A word
that is wrong in itself is reported at once.

* `Refusal`, `Topic`, `Stop`: why there is no invocation;
* `Slot`, `Switch`, `Parameter`, `Name.parameters`: what a command takes;
* `Draft`, `Draft.settle`, `Draft.fill`, `Draft.turnOn`: the parameters so far;
* `Draft.readWords`: the words behind the name of a command;
* **`parse`**: the invocation that a command line stands for.
-/

namespace VersionedTypes.Command

/-! ## Refusals -/

/-- Why a command line is refused. -/
inductive Refusal where
  | missingCommand
  | unknownCommand
  | unknownParameter
  | missingFile
  | repeatedParameter
  | invalidValue
  | unwantedValue
  deriving DecidableEq, Repr

/-- What help is asked for. -/
inductive Topic where
  | program
  | command (name : Name)
  | help
  deriving DecidableEq, Repr

/-- Why a command line stands for no invocation. -/
inductive Stop where
  | help (topic : Topic)
  | refused (r : Refusal)
  deriving DecidableEq, Repr

/-! ## Parameters -/

/-- A parameter with a value. -/
inductive Slot where
  | file
  | source
  | color
  | domain
  | name
  deriving DecidableEq, Repr

/-- A parameter without a value. -/
inductive Switch where
  | json
  | spans
  | annotations
  | verbose
  | help
  deriving DecidableEq, Repr

/-- A parameter that has a name. -/
inductive Parameter where
  | slot (s : Slot)
  | switch (s : Switch)
  deriving DecidableEq, Repr

/-- The parameters of all commands. -/
def commonParameters : List (String × Parameter) :=
  [("source", .slot .source), ("color", .slot .color), ("verbose", .switch .verbose),
    ("help", .switch .help)]

/-- The parameters of a command that shows something. -/
def viewParameters : List (String × Parameter) :=
  [("json", .switch .json), ("spans", .switch .spans), ("annotations", .switch .annotations)]

/-- The parameters of a command. -/
def Name.parameters : Name → List (String × Parameter)
  | check => commonParameters
  | dump => ("domain", .slot .domain) :: viewParameters ++ commonParameters
  | transform => ("name", .slot .name) :: viewParameters ++ commonParameters

/-- The switches that have a letter, in every command. -/
def letterSwitch? : Char → Option Switch
  | 'v' => some .verbose
  | 'h' => some .help
  | _ => none

/-! ## Drafts -/

/-- A value that was not looked at yet, or is still to come. -/
structure Pending where
  slot : Slot
  value : Option String
  deriving DecidableEq, Repr

/-- What is known of an invocation. -/
structure Draft where
  name : Name
  file : Option String := none
  source : Option String := none
  color : Option Color := none
  /-- The domain or the transform to show. -/
  selected : Option String := none
  view : View := {}
  verbosity : Nat := 0
  pending : Option Pending := none
  deriving DecidableEq, Repr

namespace Draft

/-- A value was given before. -/
def isFilled (d : Draft) : Slot → Bool
  | .file => d.file.isSome
  | .source => d.source.isSome
  | .color => d.color.isSome
  | .domain | .name => d.selected.isSome

/-- Take a value. No file has an empty name. -/
def fill (d : Draft) (slot : Slot) (value : String) : Except Stop Draft :=
  if d.isFilled slot then .error (.refused .repeatedParameter)
  else
    match slot with
    | .file =>
      if value.isEmpty then .error (.refused .invalidValue) else .ok { d with file := some value }
    | .source =>
      if value.isEmpty then .error (.refused .invalidValue)
      else .ok { d with source := some value }
    | .color =>
      match Color.ofText? value with
      | some c => .ok { d with color := some c }
      | none => .error (.refused .invalidValue)
    | .domain | .name => .ok { d with selected := some value }

/-- Take the pending value. -/
def settle (d : Draft) : Except Stop Draft :=
  match d.pending with
  | none => .ok d
  | some ⟨slot, some value⟩ => { d with pending := none }.fill slot value
  | some ⟨_, none⟩ => .error (.refused .invalidValue)

/-- Count up, as far as a byte goes. -/
def countVerbose (n : Nat) : Nat := min 255 (n + 1)

/-- Turn a switch on. Only asking for more messages can be repeated. -/
def turnOn (d : Draft) (s : Switch) : Except Stop Draft := do
  let d ← d.settle
  let once (on : Bool) (view : View) : Except Stop Draft :=
    if on then .error (.refused .repeatedParameter) else .ok { d with view }
  match s with
  | .json => once d.view.json { d.view with json := true }
  | .spans => once d.view.spans { d.view with spans := true }
  | .annotations => once d.view.annotations { d.view with annotations := true }
  | .verbose => .ok { d with verbosity := countVerbose d.verbosity }
  | .help => .error (.help (.command d.name))

/-- Read a parameter by its name, with the value behind an equals sign. -/
def readNamed (d : Draft) (word : List Char) : Except Stop Draft :=
  let name := String.ofList (word.takeWhile (· ≠ '='))
  match d.name.parameters.lookup name, word.dropWhile (· ≠ '=') with
  | none, _ => .error (.refused .unknownParameter)
  | some (.switch s), [] => d.turnOn s
  | some (.switch _), _ :: _ => .error (.refused .unwantedValue)
  | some (.slot slot), [] => do
    let d ← d.settle
    pure { d with pending := some ⟨slot, none⟩ }
  | some (.slot slot), _ :: value => do
    let d ← d.settle
    d.fill slot (String.ofList value)

/-- Read switches by their letters. -/
def readLetters (d : Draft) (word : List Char) : Except Stop Draft :=
  word.foldlM (fun d c =>
    match letterSwitch? c with
    | some s => d.turnOn s
    | none => .error (.refused .unknownParameter)) d

/-- The file was given, if only as the pending value. -/
def hasFile (d : Draft) : Bool := d.file.isSome || d.pending.any fun p => p.slot == .file

/-- Read a word that is no parameter: the file. -/
def readOperand (d : Draft) (word : String) : Except Stop Draft :=
  if d.hasFile then .error (.refused .unknownParameter)
  else do
    let d ← d.settle
    pure { d with pending := some ⟨.file, some word⟩ }

/-- Read a word that is no parameter: the value that is to come, or the file. -/
def readValue (d : Draft) (word : String) : Except Stop Draft :=
  match d.pending with
  | some ⟨slot, none⟩ => .ok { d with pending := some ⟨slot, some word⟩ }
  | _ => d.readOperand word

/-- Read the words behind the name of a command. -/
def readWords (d : Draft) : List String → Except Stop Draft
  | [] => .ok d
  | word :: words =>
    match word.toList with
    | ['-', '-'] => words.foldlM readOperand d
    | '-' :: '-' :: named => do
      let d ← d.readNamed named
      d.readWords words
    | '-' :: c :: letters => do
      let d ← d.readLetters (c :: letters)
      d.readWords words
    | _ => do
      let d ← d.readValue word
      d.readWords words

/-- The task with what is to be shown. -/
def task (d : Draft) : Task :=
  match d.name with
  | .check => .check
  | .dump => .dump d.selected d.view
  | .transform => .transform d.selected d.view

/-- The invocation, when all words are read. -/
def finish (d : Draft) : Except Stop Invocation := do
  let d ← d.settle
  match d.file with
  | some file =>
    pure { task := d.task, file, source := d.source, color := d.color.getD .auto,
           verbosity := d.verbosity }
  | none => .error (.refused .missingFile)

end Draft

/-! ## The whole command line -/

/-- The word that asks for help. -/
def helpWord : String := "help"

/-- The words behind the one that asks for help. -/
def parseTopic : List String → Stop
  | [] => .help .program
  | [word] =>
    match Name.ofText? word with
    | some name => .help (.command name)
    | none => if word = helpWord then .help .help else .refused .unknownCommand
  | _ => .refused .unknownCommand

/-- A word that stands in the place of a command without being one. -/
def parseOther (word : String) : Stop :=
  match word.toList with
  | '-' :: '-' :: named =>
    if named.takeWhile (· ≠ '=') = helpWord.toList then
      if named.contains '=' then .refused .unwantedValue else .help .program
    else .refused .unknownParameter
  | '-' :: c :: _ =>
    if letterSwitch? c = some .help then .help .program else .refused .unknownParameter
  | _ => .refused .unknownCommand

/-- Behind two dashes no word names a command. -/
def parseEscaped : List String → Stop
  | [] => .refused .missingCommand
  | word :: _ =>
    if (Name.ofText? word).isSome ∨ word = helpWord then .refused .unknownParameter
    else .refused .unknownCommand

/-- The invocation that a command line stands for. -/
def parse : List String → Except Stop Invocation
  | [] => .error (.refused .missingCommand)
  | word :: words =>
    match Name.ofText? word with
    | some name => do
      let d ← Draft.readWords { name } words
      d.finish
    | none =>
      .error (if word = "--" then parseEscaped words
        else if word = helpWord then parseTopic words
        else parseOther word)

end VersionedTypes.Command
