import VersionedTypes.Text.Display
import VersionedTypes.Text.Utf8

/-!
# The lines of a source

* `SourceLine`; `endedLines`, **`sourceLines`**: the lines of a text, with their endings;
* `Spot`, **`spotAt`**: the line and the column of a byte offset;
* `spots`: the two ends of a range.
-/

namespace VersionedTypes.Snippet

/-- A line of a source. -/
structure SourceLine where
  /-- Lines count from one. -/
  number : Nat
  /-- The byte offset of its first character. -/
  start : Nat
  text : List Char
  /-- The newline at its end, with the carriage return in front of it. -/
  ending : List Char
  deriving DecidableEq, Repr

/-- The byte offset behind the line and its ending. -/
def SourceLine.stop (l : SourceLine) : Nat := l.start + utf8Size l.text + utf8Size l.ending

/-- The lines of a text, each with its ending. -/
def endedLines : List Char → List (List Char × List Char)
  | [] => []
  | '\n' :: cs => ([], ['\n']) :: endedLines cs
  | '\r' :: '\n' :: cs => ([], ['\r', '\n']) :: endedLines cs
  | c :: cs =>
    match endedLines cs with
    | [] => [([c], [])]
    | (text, ending) :: rest => (c :: text, ending) :: rest

/-- Lines with their numbers and offsets, which count on from the given ones. -/
def numberLines (number start : Nat) : List (List Char × List Char) → List SourceLine
  | [] => []
  | (text, ending) :: rest =>
    ⟨number, start, text, ending⟩ ::
      numberLines (number + 1) (start + utf8Size text + utf8Size ending) rest

/-- The lines of a source. A newline at the very end begins no line. -/
def sourceLines (source : List Char) : List SourceLine := numberLines 1 0 (endedLines source)

/-- A place in a source. -/
structure Spot where
  line : SourceLine
  /-- The characters of the line in front of it. -/
  char : Nat
  /-- The columns that these characters fill. -/
  column : Nat
  deriving DecidableEq

/-- The line that a byte offset falls in, or the last one. An empty source has one empty line. -/
def lineAt (lines : List SourceLine) (offset : Nat) : SourceLine :=
  (lines.find? fun l => l.start ≤ offset && offset < l.stop).getD
    (lines.getLastD ⟨1, 0, [], []⟩)

/-- The place of a byte offset. Within the ending of a line it is one character further. -/
def spotAt (lines : List SourceLine) (offset : Nat) : Spot :=
  let line := lineAt lines offset
  let before := takeBytes (offset - line.start) line.text
  let beyond := if line.start + utf8Size line.text < offset then 1 else 0
  ⟨line, before.length + beyond, Text.displayWidth before⟩

/-- The place where a range ends, given where it starts: in another line an offset within the ending
is one column further. -/
def endSpot (lines : List SourceLine) (start : Spot) (offset : Nat) : Spot :=
  let spot := spotAt lines offset
  if start.line.number ≠ spot.line.number ∧ spot.line.start + utf8Size spot.line.text < offset then
    { spot with char := spot.char + 1, column := spot.column + 1 }
  else spot

/-- The two ends of a range. They are never in the same column of the same line, so that there is
something to point at. -/
def spots (lines : List SourceLine) (start stop : Nat) : Spot × Spot :=
  let first := spotAt lines start
  let last := if start = stop then first else endSpot lines first stop
  if first.line.number = last.line.number ∧ first.column = last.column then
    (first, { last with column := last.column + 1 })
  else (first, last)

end VersionedTypes.Snippet
