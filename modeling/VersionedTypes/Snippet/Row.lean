/-!
# Rows of styled characters

A snippet is drawn row by row. A row is a list of cells, one for each character, and text can be put
at any column: it replaces what stands there, and blanks fill the gap in front of it.

* `Style`, `Style.start?`; `Cell`, `Row`;
* **`Row.put`**, `Row.replace`, **`Row.text`**.
-/

namespace VersionedTypes.Snippet

/-- How a character is shown. -/
inductive Style where
  /-- Text of the source, and blanks. -/
  | plain
  /-- The message in the title. -/
  | strong
  /-- Line numbers, and the lines that frame a snippet. -/
  | frame
  /-- The word in front of the title, and what points at the mistake. -/
  | alarm
  deriving DecidableEq, Repr

/-- The escape sequences that turn a style on; the plain one is always on. -/
def Style.start? : Style → Option String
  | plain => none
  | strong => some "\x1b[1m"
  | frame => some "\x1b[1m\x1b[94m"
  | alarm => some "\x1b[1m\x1b[91m"

/-- The escape sequence that turns all styles off. -/
def styleReset : String := "\x1b[0m"

/-- A character in a style. -/
structure Cell where
  char : Char
  style : Style
  deriving DecidableEq, Repr

/-- A cell with nothing in it. -/
def Cell.blank : Cell := ⟨' ', .plain⟩

/-- A row of cells. -/
abbrev Row := List Cell

namespace Row

/-- The cells of a text. -/
def ofText (style : Style) (text : List Char) : Row := text.map fun c => ⟨c, style⟩

/-- Put `text` at `column`. -/
def put (column : Nat) (style : Style) (text : List Char) (row : Row) : Row :=
  if text.isEmpty then row
  else
    (row ++ List.replicate (column - row.length) Cell.blank).take column ++ ofText style text ++
      row.drop (column + text.length)

/-- Put `text` behind the last cell. -/
def append (style : Style) (text : List Char) (row : Row) : Row := row ++ ofText style text

/-- Put `mark` in the place of the cells from `start` to `stop`, if the row reaches that far. -/
def replace (start stop : Nat) (style : Style) (mark : List Char) (row : Row) : Row :=
  if stop ≤ row.length then row.take start ++ ofText style mark ++ row.drop stop else row

/-- The characters of cells of one style, between its escape sequences if there are colors. -/
def paint (colored : Bool) (cells : List Cell) : String :=
  let text := String.ofList (cells.map Cell.char)
  match colored, cells.head?.bind fun c => c.style.start? with
  | true, some start => start ++ text ++ styleReset
  | _, _ => text

/-- The characters of a row, painted in runs of one style. -/
def text (colored : Bool) (row : Row) : String :=
  String.join ((row.splitBy fun a b => a.style == b.style).map (paint colored))

end Row

end VersionedTypes.Snippet
