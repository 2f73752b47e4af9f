import VersionedTypes.Text.Display
import VersionedTypes.Text.Letters

/-!
# Atoms of patterns

A pattern is made of atoms: characters and what stands for a character or for a place between two of
them. Which of them are supported depends on flags: there are no tables for the letters and digits
of all scripts and for the cases of letters, and a pattern never matches a part of a character.

* `Flags`, `Flags.skip`: blanks and comments count for nothing in verbose patterns;
* `Atom`, `Atom.isSupported`, `Atom.isSupportedInClass`;
* **`Flags.readAtom?`**, `Flags.readEscape?`;
* `Series`: how deep the parts of a pattern are nested.
-/

namespace VersionedTypes.Pattern

/-! ## Flags -/

/-- What changes the meaning of a pattern. -/
structure Flags where
  /-- Letters match in both cases. -/
  caseless : Bool := false
  /-- Characters are matched rather than bytes. -/
  unicode : Bool := true
  /-- Blanks and comments count for nothing. -/
  verbose : Bool := false
  deriving DecidableEq, Repr

/-- The text without blanks and comments in front; `inComment` if it begins within a comment. -/
def skipBlanks : (inComment : Bool) → List Char → List Char
  | _, [] => []
  | true, c :: cs => skipBlanks (c != '\n') cs
  | false, c :: cs =>
    if Text.isBlank c then skipBlanks false cs
    else if c = '#' then skipBlanks true cs
    else c :: cs

/-- The text from the next character on that counts. -/
def Flags.skip (f : Flags) (cs : List Char) : List Char :=
  if f.verbose then skipBlanks false cs else cs

/-! ## Atoms -/

/-- The least part of a pattern. -/
inductive Atom where
  | char (c : Char)
  /-- A character or a byte that is written as two hexadecimal digits. -/
  | byte (n : Nat)
  /-- Any character. -/
  | any
  /-- The digits, the blanks, or the characters of words; or all others. -/
  | named (negated : Bool)
  /-- The edge of a word, or any other place. -/
  | wordEdge
  /-- The edge of a line or of the text. -/
  | lineEdge
  deriving DecidableEq, Repr

namespace Atom

/-- The code of a character. -/
def code? : Atom → Option Nat
  | char c => some c.toNat
  | byte n => some n
  | _ => none

/-- The atom is supported. -/
def isSupported (f : Flags) : Atom → Bool
  | char _ => !(f.unicode && f.caseless)
  | byte n => if f.unicode then !f.caseless else n < 0x80
  | any => f.unicode
  | named negated => !f.unicode && !negated
  | wordEdge => !f.unicode
  | lineEdge => true

/-- The atom is supported in a class, where bytes stand for ASCII alone. -/
def isSupportedInClass (f : Flags) : Atom → Bool
  | char c => if f.unicode then !f.caseless else c.toNat < 0x80
  | byte n => (byte n).isSupported f
  | named negated => (named negated).isSupported f
  | _ => false

end Atom

/-! ## Reading -/

/-- A backslash in front of the character has no meaning of its own. -/
def isEscapable (c : Char) : Bool := c.toNat < 0x80 && !c.isAlphanum && c != '<' && c != '>'

/-- Read hexadecimal digits, and go on to what counts next. -/
def Flags.readHex? (f : Flags) : (count : Nat) → List Char → Option (List Nat × List Char)
  | 0, cs => some ([], cs)
  | count + 1, cs =>
    match f.skip cs with
    | [] => none
    | c :: cs => do
      let d ← Text.hexValue? c
      let (ds, rest) ← f.readHex? count cs
      pure (d :: ds, rest)

/-- Read the code of a character. -/
def Flags.readCode? (f : Flags) (count : Nat) (cs : List Char) : Option (Nat × List Char) := do
  let (ds, rest) ← f.readHex? count cs
  let n := Text.digitsValue 16 ds
  if n.isValidChar then pure (n, rest) else none

/-- Read what follows a backslash. -/
def Flags.readEscape? (f : Flags) : List Char → Option (Atom × List Char)
  | [] => none
  | c :: cs =>
    match c with
    | 'x' => (f.readCode? 2 cs).map fun (n, rest) => (.byte n, rest)
    | 'u' => (f.readCode? 4 cs).map fun (n, rest) => (.char (Char.ofNat n), rest)
    | 'U' => (f.readCode? 8 cs).map fun (n, rest) => (.char (Char.ofNat n), rest)
    | 'a' => some (.char '\x07', cs)
    | 'f' => some (.char '\x0c', cs)
    | 'n' => some (.char '\n', cs)
    | 'r' => some (.char '\r', cs)
    | 't' => some (.char '\t', cs)
    | 'v' => some (.char '\x0b', cs)
    | 'd' | 's' | 'w' => some (.named false, cs)
    | 'D' | 'S' | 'W' => some (.named true, cs)
    | 'b' | 'B' | '<' | '>' => some (.wordEdge, cs)
    | 'A' | 'z' => some (.lineEdge, cs)
    | _ => if isEscapable c then some (.char c, cs) else none

/-- Read a character, or what a backslash makes of the next one. -/
def Flags.readAtom? (f : Flags) : List Char → Option (Atom × List Char)
  | [] => none
  | '\\' :: cs => f.readEscape? cs
  | c :: cs => some (.char c, cs)

/-! ## Nesting -/

/-- Parts of a pattern that stand side by side. -/
structure Series where
  count : Nat := 0
  /-- How deep the parts are nested. -/
  depth : Nat := 0
  deriving DecidableEq, Repr

namespace Series

/-- The series with one more part. -/
def push (s : Series) (depth : Nat) : Series := ⟨s.count + 1, max s.depth depth⟩

/-- How deep a series is nested; one part stands for itself. -/
def nesting (s : Series) : Nat := if s.count ≤ 1 then s.depth else s.depth + 1

end Series

end VersionedTypes.Pattern
