/-!
# Colors

Texts are made of pieces, each of a hue. A palette gives every hue an escape sequence that turns it
on; a piece is painted between that sequence and the one that turns all hues off.

* `Palette`, `Palette.on`, `Palette.off`;
* `Hue`, `Piece`, **`Piece.paint`**.
-/

namespace VersionedTypes

/-- Escape sequences of a terminal. -/
structure Palette where
  blue : String
  green : String
  red : String
  dim : String
  reset : String
  deriving DecidableEq, Repr

namespace Palette

/-- The palette of a terminal with colors. -/
def on : Palette :=
  { blue := "\x1b[34m", green := "\x1b[32m", red := "\x1b[31m", dim := "\x1b[2m",
    reset := "\x1b[0m" }

/-- The palette without colors. -/
def off : Palette := ⟨"", "", "", "", ""⟩

instance : Inhabited Palette := ⟨off⟩

/-- Colors if they are enabled. -/
def ofBool (enabled : Bool) : Palette := if enabled then on else off

/-- A palette is on when it has something to turn off. -/
def isOn (p : Palette) : Bool := !p.reset.isEmpty

end Palette

/-- The hues of a dump. -/
inductive Hue where
  /-- Names of fields, and blanks. -/
  | plain
  /-- Keywords, punctuation, positions and annotations. -/
  | dim
  /-- Tags of domains, types and variants. -/
  | blue
  /-- Types of fields. -/
  | green
  /-- Marks of removal. -/
  | red
  deriving DecidableEq, Repr

/-- What turns a hue on; the plain one is always on. -/
def Palette.start? (p : Palette) : Hue → Option String
  | .plain => none
  | .dim => some p.dim
  | .blue => some p.blue
  | .green => some p.green
  | .red => some p.red

/-- A text of one hue. -/
structure Piece where
  hue : Hue
  text : String
  deriving DecidableEq

/-- The text, between the sequences of its hue if it has one. -/
def Piece.paint (p : Palette) (piece : Piece) : String :=
  match p.start? piece.hue with
  | some start => start ++ piece.text ++ p.reset
  | none => piece.text

end VersionedTypes
