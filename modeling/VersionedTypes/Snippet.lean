import VersionedTypes.Position
import VersionedTypes.Snippet.Source
import VersionedTypes.Snippet.Window

/-!
# Snippets

A snippet shows the lines of a source that a message is about, with a pointer to the range in them:

    error: type `point` is already defined in domain `v1`
     --> universe.ty:3:11
      |
    3 |   product point
      |           ^^^^^ type `point` is already defined in domain `v1`

A range over several lines is marked by a bar beside its lines. In the middle of a long range lines
are left out.

* `Snippet`: a message with the place that it is about; `Part`, `Snippet.shownLines`;
* `Snippet.window`; `Snippet.codeRow`, `Snippet.pointerRows`, `Snippet.partRows`,
  `Snippet.gapRows`, `Snippet.titleRows`, `Snippet.pathRows`;
* **`Snippet.rows`**, **`Snippet.render`**.
-/

namespace VersionedTypes

open Snippet

/-- A message about a range of a source. -/
structure Snippet where
  message : String
  /-- The name of the source. -/
  path : Option String
  lines : List SourceLine
  /-- The columns for line numbers. -/
  gutter : Nat
  first : Spot
  last : Spot

namespace Snippet

/-- A snippet of `source`. The column of line numbers is as wide as the number of the last line in
front of the end of the range. -/
def ofRange (message : String) (path : Option String) (source : List Char) (r : ByteRange) :
    Snippet :=
  let lines := sourceLines source
  let (first, last) := spots lines r.start r.stop
  let counted := (endedLines (takeBytes r.stop source)).length
  { message, path, lines, gutter := (toString (max 1 counted)).length, first, last }

variable (s : Snippet)

/-- The range ends in another line than it starts. -/
def isMultiline : Bool := s.first.line.number != s.last.line.number

/-- The column of the line that frames the code. -/
def frameColumn : Nat := s.gutter + 1

/-- The column of the bar beside the lines of a long range. -/
def barColumn : Nat := s.gutter + 3

/-- The column of the code. -/
def codeColumn : Nat := s.gutter + if s.isMultiline then 5 else 3

/-! ## Shown lines -/

/-- What a shown line has to do with the range. -/
inductive Part where
  /-- The range starts and ends in it. -/
  | whole
  | opening
  | inside
  | closing
  deriving DecidableEq, Repr

/-- There is nothing of interest in a line: it is blank, a single bracket, or a comment that is not
documentation. -/
def isMinor (line : List Char) : Bool :=
  match Text.trim line with
  | [] => true
  | [c] => ['\x7b', '\x7d', '(', ')', '[', ']'].contains c
  | '/' :: '/' :: '/' :: _ | '/' :: '/' :: '!' :: _ => false
  | '/' :: '/' :: _ => true
  | _ => false

/-- The lines between the first and the last one of the range. -/
def innerLines : List SourceLine :=
  s.lines.filter fun l => s.first.line.number < l.number && l.number < s.last.line.number

/-- Up to three lines below the first one, without the minor ones at their end. -/
def headLines : List SourceLine :=
  (((s.first.line :: s.innerLines.take 3).reverse.dropWhile fun l => isMinor l.text).reverse).drop 1

/-- The line above the last one, if it is far from the first one and not minor. -/
def tailLines : List SourceLine :=
  if 4 < s.innerLines.length then s.innerLines.getLast?.toList.filter fun l => !isMinor l.text
  else []

/-- The lines that are shown, in order. -/
def shownLines : List (SourceLine × Part) :=
  if s.isMultiline then
    (s.first.line, .opening) :: (s.headLines ++ s.tailLines).map (·, .inside) ++
      [(s.last.line, .closing)]
  else [(s.first.line, .whole)]

/-! ## The window -/

/-- The columns that are pointed at in a line; inside the range there are none. -/
def span? : Part → Option (Nat × Nat)
  | .whole => some (s.first.column, s.last.column)
  | .opening => some (s.first.column, s.first.column + 1)
  | .inside => none
  | .closing => some (s.last.column - 1, s.last.column)

/-- The columns that a label takes behind what it belongs to. -/
def labelRoom : Part → Nat
  | .whole | .closing => Text.displayWidth s.message.toList + 1
  | .opening | .inside => 0

/-- The white space in front of a line, where a tab counts for four. -/
def leading (line : List Char) : Nat :=
  ((line.takeWhile Text.isBlank).map fun c => if c = '\t' then 4 else 1).foldr (· + ·) 0

/-- The white space that all lines begin with, blank lines aside. -/
def commonBlank (lines : List (List Char)) : Nat :=
  (((lines.filter fun l => !Text.isBlankText l).map leading).min?).getD 0

/-- The extent of the shown lines. -/
def extent : Extent :=
  let shown := s.shownLines
  let spans := shown.filterMap fun l => (s.span? l.2).map fun span => (l.2, span)
  { blank := commonBlank (shown.map fun l => l.1.text),
    spanLeft := ((spans.map fun (_, left, right) => min left right).min?).getD 0,
    spanRight := (spans.map fun (_, left, right) => max left right).foldl max 0,
    labelRight := (spans.map fun (part, _, right) => right + s.labelRoom part).foldl max 0,
    longest := (shown.map fun l => Text.displayWidth l.1.text).foldl max 0 }

/-- The window through which the lines are shown. -/
def window : Window := s.extent.window (terminalWidth - s.codeColumn)

/-- The columns by which a line is moved to the left. -/
def shift (line : SourceLine) : Nat := s.window.shift (Text.visible line.text)

/-- The place of a column of a line in its row. -/
def place (line : SourceLine) (column : Nat) : Nat := s.codeColumn + column - s.shift line

/-- The place of a label for a column of a line. It is never in front of the code. -/
def labelPlace (line : SourceLine) (column : Nat) : Nat := s.codeColumn + (column - s.shift line)

/-! ## Rows -/

/-- A row with nothing but the frame. -/
def frameRow : Row := Row.put s.frameColumn .frame ['|'] []

/-- A line with its number. -/
def lineRow (line : SourceLine) : Row :=
  let number := (toString line.number).toList
  let row := Row.put 0 .frame (List.replicate (s.gutter - number.length) ' ' ++ number) []
  s.window.place s.codeColumn (Text.visible line.text) (row.put s.frameColumn .frame ['|'])

/-- The row with the bar beside it. -/
def withBar (row : Row) : Row := row.put s.barColumn .alarm ['|']

/-- There is nothing but white space in front of the range. -/
def opensLine : Bool :=
  Text.isBlankText ((Text.visible s.first.line.text).take s.first.column)

/-- The row of a shown line. -/
def codeRow (line : SourceLine) : Part → Row
  | .whole => s.lineRow line
  | .opening =>
    if s.opensLine then (s.lineRow line).put s.barColumn .alarm ['/'] else s.lineRow line
  | .inside | .closing => s.withBar (s.lineRow line)

/-- A line from the bar to `column`, with its tip there. -/
def connect (column : Nat) (row : Row) : Row :=
  (row.put (s.barColumn + 1) .alarm (List.replicate (column - (s.barColumn + 1)) '_')).put
    column .alarm ['^']

/-- The label behind what is pointed at. -/
def label (column : Nat) (row : Row) : Row := row.put column .alarm s.message.toList

/-- The rows below a shown line that point at the range. -/
def pointerRows (line : SourceLine) : Part → List Row
  | .whole =>
    let columns := List.range' s.first.column (s.last.column - s.first.column)
    let row := columns.foldl (fun row p => row.put (s.place line p) .alarm ['^']) s.frameRow
    [s.label (s.labelPlace line (s.last.column + 1)) row]
  | .opening =>
    if s.opensLine then []
    else [s.connect (s.place line s.first.column) (s.frameRow.put s.barColumn .alarm [' '])]
  | .inside => []
  | .closing =>
    let after := if s.last.column = 0 then 2 else s.last.column + 1
    let row := s.connect (s.place line (s.last.column - 1)) (s.withBar s.frameRow)
    [s.label (s.labelPlace line after) row]

/-- What stands between two shown lines: the line between them if there is one, and dots if there
are more. -/
def gapRows (above below : SourceLine) : List Row :=
  if above.number + 2 < below.number then [s.withBar (Row.put 0 .frame Window.dots [])]
  else
    (s.lines.filter fun l => above.number < l.number && l.number < below.number).map fun l =>
      s.withBar (s.lineRow l)

/-- The row of a line, or the row below it, without the middle of the range if that is more than
twice as wide as the room for code. -/
def withoutMiddle (line : SourceLine) (row : Row) : Row :=
  let room := s.window.room
  if 2 * room < s.last.column - s.first.column then
    row.replace (s.place line (s.first.column + room / 3)) (s.place line (s.last.column - room / 3))
      .frame Window.dots
  else row

/-- A shown line and the rows below it. -/
def partRows (line : SourceLine) (part : Part) : List Row :=
  let rows := s.codeRow line part :: s.pointerRows line part
  match part with
  | .whole => rows.map (s.withoutMiddle line)
  | _ => rows

/-- The shown lines with what stands below and between them. -/
def bodyRows : List (SourceLine × Part) → List Row
  | [] => []
  | (line, part) :: rest =>
    let below := match rest with
      | (next, _) :: _ => s.gapRows line next
      | [] => []
    s.partRows line part ++ below ++ bodyRows rest

/-- The message behind the word that says what it is; further lines of it are indented. -/
def titleRows : List Row :=
  let word := "error".toList
  match (String.ofList (Text.visible s.message.toList)).splitOn "\n" with
  | [] => []
  | first :: rest =>
    ((Row.ofText .alarm word).append .strong (": " ++ first).toList) ::
      rest.map fun line =>
        (Row.ofText .plain (List.replicate (word.length + 2) ' ')).append .strong line.toList

/-- The name of the source with the line and the character of it. -/
def pathRows : List Row :=
  match s.path with
  | some path =>
    [(Row.put s.gutter .frame "--> ".toList []).append .plain
      s!"{path}:{s.first.line.number}:{s.first.char + 1}".toList]
  | none => []

/-- All rows from top to bottom. -/
def rows : List Row :=
  s.titleRows ++ s.pathRows ++ s.frameRow :: s.bodyRows s.shownLines

/-- The rows, one below the other. -/
def render (colored : Bool) : String := "\n".intercalate (s.rows.map (Row.text colored))

end Snippet

end VersionedTypes
