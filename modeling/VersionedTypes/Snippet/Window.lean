import VersionedTypes.Snippet.Row
import VersionedTypes.Text.Display

/-!
# Windows on wide lines

Lines that do not fit are shown through a window: a range of columns, the same for all lines of a
snippet, that keeps what is pointed at in sight. Dots stand for what is cut off.

* `Window`, `Window.leftOf`, `Window.rightOf`;
* `Window.hidden`, `Window.cut`: the parts of a line; **`Window.place`**: a line through the window;
* `Extent`: what should be in sight; **`Extent.window`**.
-/

namespace VersionedTypes.Snippet

/-- The columns of a terminal. -/
def terminalWidth : Nat := 140

/-- The columns that are shown. -/
structure Window where
  /-- How many columns there is room for. -/
  room : Nat
  left : Nat
  right : Nat
  deriving DecidableEq, Repr

namespace Window

/-- The first column that is shown of a line with `size` columns. -/
def leftOf (w : Window) (size : Nat) : Nat := min w.left size

/-- The column up to which a line with `size` columns is shown: its end, if there is room. -/
def rightOf (w : Window) (size : Nat) : Nat :=
  if size - w.left ≤ w.room then size else min size w.right

/-- The characters of a line that are to the left of the window, or begin there. -/
def hidden (w : Window) (line : List Char) : List Char :=
  Text.coverColumns (w.leftOf (Text.displayWidth line)) line

/-- The characters of a line that are in the window. -/
def cut (w : Window) (line : List Char) : List Char :=
  let size := Text.displayWidth line
  Text.takeColumns (w.rightOf size - w.leftOf size) (line.drop (w.hidden line).length)

/-- The columns by which a line is moved to the left. -/
def shift (w : Window) (line : List Char) : Nat := Text.displayWidth (w.hidden line)

/-- What stands for the part of a line that is not shown. -/
def dots : List Char := ['.', '.', '.']

/-- Put a line into `row` at `column`, as far as it is in the window, with dots in the place of its
outermost characters where it goes on. -/
def place (w : Window) (column : Nat) (line : List Char) (row : Row) : Row :=
  let size := Text.displayWidth line
  let code := w.cut line
  let first := if w.left = 0 then [] else Text.coverColumns dots.length code
  let last := Text.coverColumns dots.length code.reverse
  let rest := code.drop first.length
  let row := if w.left = 0 then row else row.put column .frame dots
  let column := column + Text.displayWidth first
  let row := row.put column .plain rest
  if size ≤ w.rightOf size then row
  else row.put (column + rest.length - last.length) .frame dots

end Window

/-- The columns that matter in the lines of a snippet. -/
structure Extent where
  /-- The white space that all lines begin with. -/
  blank : Nat
  /-- The first column pointed at. -/
  spanLeft : Nat
  /-- The last column pointed at. -/
  spanRight : Nat
  /-- The last column of a label. -/
  labelRight : Nat
  /-- The columns of the longest line. -/
  longest : Nat
  deriving DecidableEq, Repr

/-- The columns that stay in sight around what is pointed at. -/
def sight : Nat := 6

namespace Extent

/-- The extent with some room on all sides. White space that is pointed at stays in sight. -/
def padded (e : Extent) : Extent :=
  { e with
    blank := min e.blank e.spanLeft - sight, spanLeft := e.spanLeft - sight,
    spanRight := e.spanRight + sight, labelRight := e.labelRight + sight }

/-- A window from `left` on that fills the room. -/
def fill (room left : Nat) : Window := ⟨room, left, left + room⟩

/-- The window for lines with `room` columns to be shown in. Leading white space is cut when there
is much of it. When the longest line still does not fit, the window keeps in sight the label and all
of the code in front of it, or else the label and what is pointed at, or else what is pointed at, as
far as there is room for it. -/
def window (e : Extent) (room : Nat) : Window :=
  let e := e.padded
  let left := if 20 < e.blank then e.blank - 16 else 0
  let right := max e.longest left
  if right - left ≤ room then ⟨room, left, right⟩
  else if e.labelRight - e.blank ≤ room then fill room e.blank
  else if e.labelRight - e.spanLeft ≤ room then
    fill room (e.spanLeft - (room - (e.labelRight - e.spanLeft)) / 2)
  else if e.spanRight - e.spanLeft ≤ room then
    fill room (e.spanLeft - (room - (e.spanRight - e.spanLeft)) / 5 * 2)
  else ⟨room, e.spanLeft, e.spanRight⟩

end Extent

end VersionedTypes.Snippet
