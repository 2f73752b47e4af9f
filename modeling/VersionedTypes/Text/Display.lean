import VersionedTypes.Text.Ranges

/-!
# Text on a terminal

* `width`, `displayWidth`: the columns that a text fills;
* `takeColumns`, `coverColumns`: what fits into so many columns, and what it takes to fill them;
* `isBlank`, `isBlankText`, `trim`: white space;
* **`visible`**: a text in which nothing is hidden and nothing changes the direction of writing.
-/

namespace VersionedTypes.Text

/-! ## Columns -/

/-- A control character. -/
def isControl (c : Char) : Bool := c.toNat < 0x20 || (0x7f ≤ c.toNat && c.toNat < 0xa0)

/-- The character is part of an instruction on the direction of writing. -/
def isDirectional (c : Char) : Bool :=
  (0x202a ≤ c.toNat && c.toNat ≤ 0x202e) || (0x2066 ≤ c.toNat && c.toNat ≤ 0x2069)

/-- The character has no columns of its own. A joiner of consonants fills one where it joins
nothing. -/
def isInvisible (c : Char) : Bool :=
  c != '\u2d7f' &&
    (inRanges combiningRanges c || inRanges addedMarkRanges c || inRanges ignorableRanges c ||
      inRanges attachedRanges c)

/-- The columns that a character fills. A tab counts for four and a control for the one that its
picture fills. The abbreviation for "and so on" in Khmer is three letters wide. -/
def width (c : Char) : Nat :=
  if c = '\t' then 4
  else if c.toNat < 0x7f ∨ isControl c ∨ isDirectional c then 1
  else if c = '\u17d8' then 3
  else if inRanges wideRanges c then 2
  else if isInvisible c then 0
  else 1

/-- The columns that a text fills. -/
def displayWidth (cs : List Char) : Nat := (cs.map width).foldr (· + ·) 0

/-- The characters that end within the first `n` columns. -/
def takeColumns : Nat → List Char → List Char
  | _, [] => []
  | n, c :: cs => if width c ≤ n then c :: takeColumns (n - width c) cs else []

/-- The characters that begin within the first `n` columns. -/
def coverColumns : Nat → List Char → List Char
  | 0, _ => []
  | _ + 1, [] => []
  | n + 1, c :: cs => c :: coverColumns (n + 1 - width c) cs

/-! ## White space -/

/-- White space, as Unicode has it. -/
def isBlank (c : Char) : Bool := inRanges blankRanges c

/-- There is nothing but white space. -/
def isBlankText (cs : List Char) : Bool := cs.all isBlank

/-- The text without the white space at its ends. -/
def trim (cs : List Char) : List Char :=
  ((cs.dropWhile isBlank).reverse.dropWhile isBlank).reverse

/-! ## Visible text -/

/-- What is shown of a character: four spaces of a tab, the picture of another control, nothing of
a joiner, and a replacement of what changes the direction of writing. Newlines stay. -/
def visibleChar (c : Char) : List Char :=
  if c = '\t' then [' ', ' ', ' ', ' ']
  else if c = '\n' then [c]
  else if c.toNat < 0x20 then [Char.ofNat (0x2400 + c.toNat)]
  else if c = '\x7f' then ['\u2421']
  else if c = '\u200d' then []
  else if isDirectional c then ['\ufffd']
  else [c]

/-- What is shown of a text. -/
def visible (cs : List Char) : List Char := cs.flatMap visibleChar

end VersionedTypes.Text
