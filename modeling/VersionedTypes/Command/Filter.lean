import VersionedTypes.Command.Log
import VersionedTypes.Pattern
import VersionedTypes.Text.Utf8

/-!
# Filters of the log

A filter says which events are written. It is a list of directives, `component[span{field}]=level`,
of which every part may be missing; the most specific one about an event decides on it.

* `Directive`, `Directive.concerns`, `Directive.isBelow`: what a directive is about, and which of
  two is the more specific one;
* `levelOfWord?`, `FieldTest.parse?`, **`Directive.parse?`**;
* `Filter`, `Filter.parse?`, `Filter.ofSettings`, **`Filter.admits`**.
-/

namespace VersionedTypes.Command

/-! ## Directives -/

/-- A field, and the pattern that its value must match. -/
structure FieldTest where
  name : String
  value : Option String := none
  deriving DecidableEq, Repr

/-- Events that meet all conditions are written up to `level`, or not at all. -/
structure Directive where
  /-- The beginning of the name of the component. -/
  component : String := ""
  /-- The name of the span in which events happen. -/
  span : Option String := none
  field : Option FieldTest := none
  level : Option Level := some .trace
  deriving DecidableEq, Repr

namespace Directive

/-- The directive is about spans. Values are looked at in the fields of spans alone. -/
def isForSpans (d : Directive) : Bool := d.span.isSome || d.field.any fun f => f.value.isSome

/-- The directive is about the event. No event happens in a span. -/
def concerns (d : Directive) (e : Event) : Bool :=
  !d.isForSpans && d.component.isPrefixOf e.component && d.field.all fun f => e.hasField f.name

/-- Of two fields the other counts more: it is the only one, or the later one by name. -/
def isLesserField : Option FieldTest → Option FieldTest → Bool
  | none, other => other.isSome
  | some f, some other => decide (f.name < other.name)
  | some _, none => false

/-- Of two directives about an event the other is the more specific one: it names more of the
component or, of the same component, a field. -/
def isBelow (d other : Directive) : Bool :=
  d.component.length < other.component.length ||
    (d.component.length == other.component.length && isLesserField d.field other.field)

end Directive

/-! ## Reading of directives -/

/-- The number that digits stand for, with or without a sign. -/
def numberOfWord? (word : List Char) : Option Nat :=
  let digits := if word.head? = some '+' then word.tail else word
  if digits.isEmpty then none else (digits.mapM Text.decimalValue?).map (Text.digitsValue 10)

/-- The level of a number or of a word in any case of letters; the outer option says whether there
is one, the inner whether any event passes it. -/
def levelOfWord? (word : String) : Option (Option Level) :=
  match numberOfWord? word.toList with
  | some 0 => some none
  | some n => (Level.all.find? fun l => l.rank == n).map some
  | none =>
    if word.toUpper = "OFF" then some none
    else (Level.all.find? fun l => word.toUpper == l.name).map some

/-- The text is a number without a sign: digits with or without a point, and an exponent. -/
def isDecimal (cs : List Char) : Bool :=
  let whole := cs.takeWhile Char.isDigit
  let rest := cs.drop whole.length
  let fraction := if rest.head? = some '.' then rest.tail.takeWhile Char.isDigit else []
  let rest := if rest.head? = some '.' then rest.tail.drop fraction.length else rest
  !(whole ++ fraction).isEmpty &&
    match rest with
    | [] => true
    | 'e' :: '-' :: ds | 'E' :: '-' :: ds | 'e' :: '+' :: ds | 'E' :: '+' :: ds
    | 'e' :: ds | 'E' :: ds => !ds.isEmpty && ds.all Char.isDigit
    | _ => false

/-- The text is a word for what no digits are written for. -/
def isUnwritable (cs : List Char) : Bool :=
  ["INF", "INFINITY", "NAN"].contains (String.ofList cs).toUpper

/-- The value can be tested for: it is a number or a pattern. All numbers are patterns but those with
the sign of what is positive. -/
def isTestValue (value : String) : Bool :=
  Pattern.isPattern value.toList ||
    match value.toList with
    | '+' :: cs => isDecimal cs || isUnwritable cs
    | _ => false

/-- A name alone, or a name and a value with an equals sign between them. -/
def FieldTest.parse? (text : String) : Option FieldTest :=
  match text.splitOn "=" with
  | name :: value :: _ => if isTestValue value then some { name, value := some value } else none
  | _ => if text.isEmpty then none else some { name := text }

namespace Directive

/-- A directive may begin with the character, unless it begins with a bracket. -/
def isNameStart (c : Char) : Bool :=
  c == '-' || c == ':' || c == '_' || Text.isAlphanumeric c

/-- The text between two byte offsets. -/
def part (text : List Char) (start stop : Nat) : String :=
  String.ofList (takeBytes (stop - start) (dropBytes start text))

/-- The directive with the level that is written from byte `start` on; an empty one lets everything
pass. -/
def withLevel? (d : Directive) (text : List Char) (start : Nat) : Option Directive :=
  match dropBytes start text with
  | [] => some d
  | word => (levelOfWord? (String.ofList word)).map fun level => { d with level }

/-- Read what follows the brackets, from byte `start` on: nothing or a level. -/
def readEnd? (d : Directive) (text : List Char) (start : Nat) : List Char → Option Directive
  | [] => some d
  | '=' :: _ => d.withLevel? text (start + 1)
  | _ => none

/-- Read what is in the brackets, from byte `start` on: a span, a field in braces, or both. -/
def readBrackets? (d : Directive) (text : List Char) (start : Nat) (rest : List Char) :
    Option Directive :=
  let span := rest.takeWhile fun c => c != ']' && c != '\x7b'
  let stop := start + utf8Size span
  match rest.drop span.length with
  | ']' :: rest => { d with span := some (part text start stop) }.readEnd? text (stop + 1) rest
  | '\x7b' :: rest =>
    let field := rest.takeWhile fun c => c != '\x7d'
    let last := stop + 1 + utf8Size field
    match FieldTest.parse? (part text (stop + 1) last), rest.drop field.length with
    | some test, '\x7d' :: ']' :: rest =>
      let span := if span.isEmpty then none else some (part text start stop)
      { d with span, field := some test }.readEnd? text (last + 2) rest
    | _, _ => none
  | _ => none

/-- A level, or else the name of a component. -/
def ofWord (word : String) : Directive :=
  match levelOfWord? word with
  | some level => { level }
  | none => { component := word }

/-- Read a directive. White space around it is not looked at, but the byte offsets that its parts
have without it are those at which they are taken from the whole text. -/
def parse? (text : List Char) : Option Directive :=
  match Text.trim text with
  | [] => none
  | '[' :: rest => ({} : Directive).readBrackets? text 1 rest
  | c :: rest =>
    let name := c :: rest.takeWhile fun c => c != '=' && c != '['
    let stop := utf8Size name
    let d : Directive := { component := part text 0 stop }
    if !isNameStart c then none
    else
      match (c :: rest).drop name.length with
      | [] => some (ofWord (String.ofList text))
      | '=' :: _ => d.withLevel? text (stop + 1)
      | _ :: rest => d.readBrackets? text (stop + 1) rest

end Directive

/-! ## Filters -/

/-- A list of directives. -/
abbrev Filter := List Directive

namespace Filter

/-- All events up to a level. -/
def upTo (level : Level) : Filter := [{ level := some level }]

/-- The directives of a text, with commas between them. Without any of them errors are written. -/
def parse? (text : String) : Option Filter :=
  match (text.splitOn ",").filter fun piece => !piece.isEmpty with
  | [] => some (upTo .error)
  | pieces => pieces.mapM fun piece => Directive.parse? piece.toList

/-- The filter for a number of requests for more messages, or else for the text of a setting. -/
def ofSettings (verbosity : Nat) (setting : Option String) : Filter :=
  match verbosity with
  | 0 => (setting.bind parse?).getD (upTo .warn)
  | 1 => upTo .info
  | 2 => upTo .debug
  | _ => upTo .trace

/-- The directive that decides on an event: the most specific one, and of equals the last. -/
def directive? (f : Filter) (e : Event) : Option Directive :=
  (f.filter fun d => d.concerns e).foldl
    (fun best d => if best.any d.isBelow then best else some d) none

/-- The event is written. -/
def admits (f : Filter) (e : Event) : Bool :=
  ((f.directive? e).bind Directive.level).any fun l => e.level.rank ≤ l.rank

end Filter

end VersionedTypes.Command
