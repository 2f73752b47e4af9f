import VersionedTypes.Command.Invocation

/-!
# Inputs

A command reads the declarations, and after them the source if one was named. A dash names the
standard input.

* `Place`, `Place.ofArgument`, `Place.label`: where a text is read from;
* `InputError`, `InputError.message`: why it cannot be read; `decodeText`;
* `Input`, `Inputs`: what was read, and **`Inputs.gather`**.
-/

namespace VersionedTypes.Command

/-- Where a text is read from. -/
inductive Place where
  | standardInput
  | file (path : String)
  deriving DecidableEq, Repr

namespace Place

/-- The place that a word of the command line names. -/
def ofArgument (word : String) : Place := if word = "-" then standardInput else file word

/-- The name of the place in messages. -/
def label : Place → String
  | standardInput => "<stdin>"
  | file path => path

end Place

/-- Why a text cannot be read. -/
inductive InputError where
  | notFound
  | directory
  /-- The path goes on behind a file. -/
  | notDirectory
  /-- The path or one of its names is too long. -/
  | nameTooLong
  /-- The path has a character that ends texts in the system. -/
  | nulInName
  | notText
  /-- Anything else that the system reports. -/
  | system (report : String)
  deriving DecidableEq, Repr

/-- Why a text cannot be read, in the words of the system. -/
def InputError.message : InputError → String
  | notFound => "No such file or directory (os error 2)"
  | directory => "Is a directory (os error 21)"
  | notDirectory => "Not a directory (os error 20)"
  | nameTooLong => "File name too long (os error 36)"
  | nulInName => "file name contained an unexpected NUL byte"
  | notText => "stream did not contain valid UTF-8"
  | system report => report

/-- The text that bytes stand for. -/
def decodeText (bytes : ByteArray) : Except InputError String :=
  match String.fromUTF8? bytes with
  | some s => .ok s
  | none => .error .notText

/-- A text, or why there is none, with the name of its place. -/
structure Input where
  label : String
  content : Except InputError String

/-- The inputs of a command. -/
structure Inputs where
  declarations : Input
  source : Option Input := none

namespace Inputs

variable {m : Type → Type} [Monad m]

/-- Read the input at a place. -/
def readPlace (read : Place → m (Except InputError String)) (place : Place) : m Input := do
  let content ← read place
  pure ⟨place.label, content⟩

/-- Read the declarations and, if they could be read, the source. -/
def gather (read : Place → m (Except InputError String)) (i : Invocation) : m Inputs := do
  let declarations ← readPlace read (.ofArgument i.file)
  match declarations.content, i.source with
  | .ok _, some word =>
    let source ← readPlace read (.ofArgument word)
    pure { declarations, source := some source }
  | _, _ => pure { declarations }

end Inputs

end VersionedTypes.Command
