import VersionedTypes.Text.Utf8

/-!
# Source positions

A declaration remembers the line, the column and the length of the text that it was read from.
Lines and columns count from one and columns count characters; line zero means that the position
is not known.

* `Position`, `Position.isKnown`, `Position.text`;
* `ByteRange` and **`Position.byteRange`**: the bytes of a text that a position stands for.
-/

namespace VersionedTypes

/-- A place in the source of a declaration. -/
structure Position where
  line : UInt32
  column : UInt32
  length : UInt32 := 0
  deriving DecidableEq, Repr

/-- A half-open range of byte offsets. -/
structure ByteRange where
  start : Nat
  stop : Nat
  deriving DecidableEq, Repr

namespace Position

/-- The position of a value that no source declares. -/
def unknown : Position := ⟨0, 0, 0⟩

instance : Inhabited Position := ⟨unknown⟩

/-- Lines count from one, so line zero is no line. -/
def isKnown (p : Position) : Bool := p.line != 0

/-- Line and column, or a placeholder for an unknown position. -/
def text (p : Position) : String :=
  if p.isKnown then toString p.line.toNat ++ ":" ++ toString p.column.toNat else "<unknown>"

/-- The bytes of `source` from the position's column on, for as many characters as it is long.
A column past the end of its line stands for the end of the line, column zero for the first
column, and a length that runs over the end of the text is cut there. -/
def byteRange (p : Position) (source : List Char) : Option ByteRange :=
  if p.isKnown then
    (afterNewlines (p.line.toNat - 1) source).map fun rest =>
      let skipped := (rest.takeWhile (· ≠ '\n')).take (p.column.toNat - 1)
      let start := utf8Size source - utf8Size rest + utf8Size skipped
      ⟨start, start + utf8Size ((rest.drop skipped.length).take p.length.toNat)⟩
  else none

end Position

/-- The characters of `source` within the range. -/
def ByteRange.slice (r : ByteRange) (source : List Char) : List Char :=
  takeBytes (r.stop - r.start) (dropBytes r.start source)

end VersionedTypes
