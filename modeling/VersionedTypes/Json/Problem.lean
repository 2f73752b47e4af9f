import VersionedTypes.Json.Basic
import VersionedTypes.Text.Quoted

/-!
# What can be wrong with a JSON text

A text can break the grammar, or be a value of another form than expected.

* `Json.Found`: a value as a message names it;
* `Json.Problem`, `Json.Problem.message`;
* `Json.ReadError`: a problem at a line and column, **`Json.ReadError.message`**.
-/

namespace VersionedTypes.Json

/-- A value of an unexpected form. -/
inductive Found where
  | null
  | bool (value : Bool)
  | number (value : Number)
  | string (value : String)
  | sequence
  | map
  deriving DecidableEq

/-- What the message names of a value. -/
def found : Json → Found
  | null => .null
  | bool b => .bool b
  | number n => .number n
  | string s => .string s
  | array _ => .sequence
  | object _ => .map

/-- What was found, in words: its kind, and the value itself where it is a single one. -/
def Found.text : Found → String
  | null => "null"
  | bool b => s!"boolean `{b}`"
  | number (.integer i) => s!"integer `{i}`"
  | number (.float x) => s!"floating point `{x.text}`"
  | string s => s!"string {Text.quote s}"
  | sequence => "sequence"
  | map => "map"

/-- A reason not to accept a text. -/
inductive Problem where
  | endInList
  | endInObject
  | endInString
  | endInValue
  | expectedColon
  | expectedListCommaOrEnd
  | expectedObjectCommaOrEnd
  | expectedWord
  | expectedValue
  | invalidEscape
  | invalidNumber
  | numberOutOfRange
  | keyNotAString
  | loneSurrogate
  | endOfHexEscape
  | trailingComma
  | trailingCharacters
  | recursionLimit
  | controlCharacter
  | invalidType (found : Found) (expected : String)
  | invalidValue (found : Found) (expected : String)
  | invalidLength (length : Nat) (expected : String)
  | missingField (name : String)
  | duplicateField (name : String)
  | unknownVariant (name : String) (known : List String)
  deriving DecidableEq

/-- The alternatives of a choice, as a message lists them. -/
def alternatives : List String → String
  | [] => "there are no variants"
  | [a] => s!"expected `{a}`"
  | [a, b] => s!"expected `{a}` or `{b}`"
  | names => "expected one of " ++ ", ".intercalate (names.map fun a => s!"`{a}`")

/-- What is wrong with a text, in words. -/
def Problem.message : Problem → String
  | endInList => "EOF while parsing a list"
  | endInObject => "EOF while parsing an object"
  | endInString => "EOF while parsing a string"
  | endInValue => "EOF while parsing a value"
  | expectedColon => "expected `:`"
  | expectedListCommaOrEnd => "expected `,` or `]`"
  | expectedObjectCommaOrEnd => "expected `,` or `\x7d`"
  | expectedWord => "expected ident"
  | expectedValue => "expected value"
  | invalidEscape => "invalid escape"
  | invalidNumber => "invalid number"
  | numberOutOfRange => "number out of range"
  | keyNotAString => "key must be a string"
  | loneSurrogate => "lone leading surrogate in hex escape"
  | endOfHexEscape => "unexpected end of hex escape"
  | trailingComma => "trailing comma"
  | trailingCharacters => "trailing characters"
  | recursionLimit => "recursion limit exceeded"
  | controlCharacter => "control character (\\u0000-\\u001F) found while parsing a string"
  | invalidType found expected => s!"invalid type: {found.text}, expected {expected}"
  | invalidValue found expected => s!"invalid value: {found.text}, expected {expected}"
  | invalidLength length expected => s!"invalid length {length}, expected {expected}"
  | missingField name => s!"missing field `{name}`"
  | duplicateField name => s!"duplicate field `{name}`"
  | unknownVariant name known => s!"unknown variant `{name}`, {alternatives known}"

/-- A problem, and the line and column up to which the text was read when it was found. A problem
in the form of a whole text has no place. -/
structure ReadError where
  problem : Problem
  place : Option (Nat × Nat)
  deriving DecidableEq

/-- The problem with its line and column, if it has a place. -/
def ReadError.message (e : ReadError) : String :=
  match e.place with
  | some (line, column) => s!"{e.problem.message} at line {line} column {column}"
  | none => e.problem.message

end VersionedTypes.Json
