import VersionedTypes.Json.Problem
import VersionedTypes.Text.Letters
import VersionedTypes.Text.Utf8

/-!
# Reading from a JSON text

A reader stands at a place of the text and moves on over what it accepts. A failure remembers where
the reader stood, and as a rule the place that is to be reported; a value of the wrong form that was
read as a whole has no place yet, and gets one from the list or record that it stands in.

* `Cursor`, `ReadFailure`, `Reader`;
* `fail`, `failNext`, `failUnplaced`;
* `peek`, `advance`, `token`: the next character, past blanks;
* **`enclosed`**: the inside of brackets, which gives a failure without a place the place behind it;
* `readString`, `readNumber`: the scalars with an inner grammar.
-/

namespace VersionedTypes.Json

/-- A place in a text: what is left of it, and how many bytes were read. -/
structure Cursor where
  rest : List Char
  offset : Nat

/-- A failure of a reader at `cursor`, to be reported at the byte offset `place`. -/
structure ReadFailure where
  problem : Problem
  place : Option Nat
  cursor : Cursor

/-- An action that moves a cursor. -/
abbrev Reader := StateT Cursor (Except ReadFailure)

namespace Reader

variable {α : Type}

/-- Fail at the place where the reader stands. -/
def fail (p : Problem) : Reader α := fun c => .error ⟨p, some c.offset, c⟩

/-- Fail one byte further on, unless the text ends here. -/
def failNext (p : Problem) : Reader α := fun c =>
  .error ⟨p, some (if c.rest.isEmpty then c.offset else c.offset + 1), c⟩

/-- Fail without a place. -/
def failUnplaced (p : Problem) : Reader α := fun c => .error ⟨p, none, c⟩

/-- A result, or a failure without a place. -/
def ofExcept : Except Problem α → Reader α
  | .ok a => pure a
  | .error p => failUnplaced p

/-! ## Characters -/

/-- The next character. -/
def peek : Reader (Option Char) := fun c => .ok (c.rest.head?, c)

/-- Move past the next character. -/
def advance : Reader Unit := fun c =>
  match c.rest with
  | [] => .ok ((), c)
  | x :: xs => .ok ((), ⟨xs, c.offset + x.utf8Size⟩)

/-- Blanks between tokens. -/
def isBlank (c : Char) : Bool := c == ' ' || c == '\n' || c == '\t' || c == '\r'

/-- Move past characters of a class, and give them. -/
def takeWhile (p : Char → Bool) : Reader (List Char) := fun c =>
  let taken := c.rest.takeWhile p
  .ok (taken, ⟨c.rest.dropWhile p, c.offset + utf8Size taken⟩)

/-- The next character that is no blank. -/
def token : Reader (Option Char) := do
  let _ ← takeWhile isBlank
  peek

/-- Move past the characters of a word, which has to stand here. -/
def expectWord : List Char → Reader Unit
  | [] => pure ()
  | w :: ws => do
    match ← peek with
    | none => fail .endInValue
    | some c => if c = w then advance; expectWord ws else failNext .expectedWord

/-! ## Brackets -/

/-- The inside of brackets, and then their end. A failure without a place is reported where the
reader stands after it has tried to reach the end. -/
def enclosed (inside : Reader α) (ending : Reader Unit) : Reader α := fun c =>
  match inside c with
  | .ok (a, c') => (ending c').map fun (_, c'') => (a, c'')
  | .error ⟨p, some place, c'⟩ => .error ⟨p, some place, c'⟩
  | .error ⟨p, none, c'⟩ =>
    let stopped := match ending c' with
      | .ok (_, c'') => c''
      | .error e => e.cursor
    .error ⟨p, some stopped.offset, stopped⟩

/-- The end of a list. -/
def endOfList : Reader Unit := do
  match ← token with
  | some ']' => advance
  | some ',' =>
    advance
    match ← token with
    | some ']' => failNext .trailingComma
    | _ => failNext .trailingCharacters
  | some _ => failNext .trailingCharacters
  | none => failNext .endInList

/-- The end of an object. -/
def endOfObject : Reader Unit := do
  match ← token with
  | some '\x7d' => advance
  | some ',' => failNext .trailingComma
  | some _ => failNext .trailingCharacters
  | none => failNext .endInObject

/-- Whether another item of a list follows; its comma is read. -/
def moreItems (first : Bool) : Reader Bool := do
  match ← token with
  | none => failNext .endInList
  | some ']' => pure false
  | some c =>
    if first then pure true
    else if c = ',' then
      advance
      match ← token with
      | some ']' => failNext .trailingComma
      | some _ => pure true
      | none => failNext .endInValue
    else failNext .expectedListCommaOrEnd

/-- Whether another member of an object follows; its comma is read. -/
def moreMembers (first : Bool) : Reader Bool := do
  match ← token with
  | none => failNext .endInObject
  | some '\x7d' => pure false
  | some c =>
    if first then if c = '"' then pure true else failNext .keyNotAString
    else if c = ',' then
      advance
      match ← token with
      | some '"' => pure true
      | some '\x7d' => failNext .trailingComma
      | some _ => failNext .keyNotAString
      | none => failNext .endInValue
    else failNext .expectedObjectCommaOrEnd

/-- The colon behind the name of a member. -/
def colon : Reader Unit := do
  match ← token with
  | some ':' => advance
  | some _ => failNext .expectedColon
  | none => failNext .endInObject

/-! ## Strings -/

/-- Four hexadecimal digits; the text must have four more bytes whatever they are. -/
def hexQuad : Reader Nat := fun c =>
  let next := c.rest.take 4
  if utf8Size next < 4 then .error ⟨.endInString, some (c.offset + utf8Size next), c⟩
  else
    match next.mapM Text.hexValue? with
    | some ds => .ok (Text.digitsValue 16 ds, ⟨c.rest.drop 4, c.offset + 4⟩)
    | none => .error ⟨.invalidEscape, some (c.offset + 4), c⟩

/-- A code unit that begins a pair. -/
def isHighSurrogate (n : Nat) : Bool := 0xd800 ≤ n && n ≤ 0xdbff

/-- A code unit that ends a pair. -/
def isLowSurrogate (n : Nat) : Bool := 0xdc00 ≤ n && n ≤ 0xdfff

/-- Move past `x`, which belongs to the second half of a surrogate pair. -/
def expectOfPair (x : Char) : Reader Unit := do
  match ← peek with
  | none => fail .endInString
  | some c => if c = x then advance else failNext .endOfHexEscape

/-- The character of a hexadecimal escape, or of two that stand for a surrogate pair. -/
def hexEscape : Reader Char := do
  let n ← hexQuad
  if isLowSurrogate n then fail .loneSurrogate
  else if isHighSurrogate n then
    expectOfPair '\\'
    expectOfPair 'u'
    let m ← hexQuad
    if isLowSurrogate m then pure (Char.ofNat (0x10000 + (n - 0xd800) * 0x400 + (m - 0xdc00)))
    else fail .loneSurrogate
  else pure (Char.ofNat n)

/-- The character that a short escape stands for. -/
def shortEscape? : Char → Option Char
  | '"' => some '"'
  | '\\' => some '\\'
  | '/' => some '/'
  | 'b' => some '\x08'
  | 'f' => some '\x0c'
  | 'n' => some '\n'
  | 'r' => some '\r'
  | 't' => some '\t'
  | _ => none

/-- The character of an escape, behind the backslash. -/
def escape : Reader Char := do
  match ← peek with
  | none => fail .endInString
  | some 'u' =>
    advance
    hexEscape
  | some c =>
    match shortEscape? c with
    | some d =>
      advance
      pure d
    | none => failNext .invalidEscape

/-- Controls stand in no string. -/
def isControl (c : Char) : Bool := c.toNat < 0x20

/-- The characters up to the closing quote, of which there are at most `fuel`. -/
def stringChars : (fuel : Nat) → Reader (List Char)
  | 0 => fail .endInString
  | fuel + 1 => do
    match ← peek with
    | none => fail .endInString
    | some '"' =>
      advance
      pure []
    | some '\\' =>
      advance
      let c ← escape
      let cs ← stringChars fuel
      pure (c :: cs)
    | some c =>
      if isControl c then failNext .controlCharacter
      else
        advance
        let cs ← stringChars fuel
        pure (c :: cs)

/-- A string, from its opening quote on. -/
def readString : Reader String := do
  advance
  let c ← get
  String.ofList <$> stringChars (c.rest.length + 1)

/-! ## Numbers -/

/-- The largest significand that is kept. -/
def maxSignificand : Nat := Nat.pow 2 64 - 1

/-- An ASCII digit: other digits are no part of a number. -/
def isDigit (c : Char) : Bool := '0' ≤ c && c ≤ '9'

/-- Digits appended to a significand as long as it stays below its bound, and how many were. -/
def accumulate (significand kept : Nat) : List Char → Nat × Nat
  | [] => (significand, kept)
  | d :: ds =>
    let s := significand * 10 + (d.toNat - '0'.toNat)
    if maxSignificand < s then (significand, kept) else accumulate s (kept + 1) ds

/-- The floating point number of the given parts. -/
def decimal (negative : Bool) (significand : Nat) (e : Int) : Reader Number :=
  match Binary64.ofDecimal negative significand e with
  | some x => pure (.float x)
  | none => fail .numberOutOfRange

/-- The bound of an exponent. -/
def maxExponent : Nat := Nat.pow 2 31 - 1

/-- The digits of an exponent. One that is out of bounds makes the number too large or zero. -/
def exponentDigits (negative : Bool) (significand : Nat) (e : Int) (down : Bool) (n : Nat) :
    List Char → Reader Number
  | [] => decimal negative significand (if down then e - n else e + n)
  | d :: ds => do
    advance
    let n' := n * 10 + (d.toNat - '0'.toNat)
    if n' ≤ maxExponent then exponentDigits negative significand e down n' ds
    else if significand ≠ 0 ∧ !down then fail .numberOutOfRange
    else
      let _ ← takeWhile isDigit
      decimal negative 0 0

/-- An exponent behind a significand that stands for `significand * 10 ^ e`. -/
def exponent (negative : Bool) (significand : Nat) (e : Int) : Reader Number := do
  advance
  let sign ← peek
  if sign = some '+' ∨ sign = some '-' then advance
  match ← peek with
  | none => fail .endInValue
  | some c =>
    if isDigit c then
      let s ← get
      exponentDigits negative significand e (sign = some '-') 0 (s.rest.takeWhile isDigit)
    else failNext .invalidNumber

/-- What may follow the digits of a number: an exponent. -/
def scaled (negative : Bool) (significand : Nat) (e : Int) : Reader Number := do
  match ← peek with
  | some 'e' | some 'E' => exponent negative significand e
  | _ => decimal negative significand e

/-- The digits behind a decimal point. -/
def fraction (negative : Bool) (significand : Nat) (e : Int) : Reader Number := do
  advance
  let ds ← takeWhile isDigit
  if ds.isEmpty then
    match ← peek with
    | some _ => failNext .invalidNumber
    | none => failNext .endInValue
  else
    let (s, kept) := accumulate significand 0 ds
    scaled negative s (e - kept)

/-- The number of a significand without fraction and exponent. Zero behind a sign, and what does
not fit into 64 bits, is a floating point number. -/
def integer (negative : Bool) (significand : Nat) : Reader Number :=
  if !negative then pure (.integer significand)
  else if significand = 0 ∨ Nat.pow 2 63 < significand then decimal true significand 0
  else pure (.integer (-significand))

/-- What follows the integral digits. -/
def numberTail (negative : Bool) (significand dropped : Nat) : Reader Number := do
  match ← peek with
  | some '.' => fraction negative significand dropped
  | some 'e' | some 'E' => exponent negative significand dropped
  | _ => if dropped = 0 then integer negative significand else decimal negative significand dropped

/-- A number behind its sign. -/
def unsigned (negative : Bool) : Reader Number := do
  match ← peek with
  | none => fail .endInValue
  | some '0' =>
    advance
    match ← peek with
    | some c => if isDigit c then failNext .invalidNumber else numberTail negative 0 0
    | none => numberTail negative 0 0
  | some c =>
    if isDigit c then
      let ds ← takeWhile isDigit
      let (s, kept) := accumulate 0 0 ds
      numberTail negative s (ds.length - kept)
    else failNext .invalidNumber

/-- A number, from its sign or first digit on. -/
def readNumber : Reader Number := do
  if (← peek) = some '-' then
    advance
    unsigned true
  else unsigned false

end Reader

end VersionedTypes.Json
