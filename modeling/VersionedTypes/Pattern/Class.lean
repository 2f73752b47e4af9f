import VersionedTypes.Pattern.Atom

/-!
# Classes of characters

A class stands in brackets: characters, ranges and classes side by side, with operators between
them. Classes of ASCII have names.

* `classNames`, `readClassName?`;
* `Flags.readMember?`: a character or a range;
* `OpenClass`, `Flags.openClass?`; **`Flags.readClass?`**.
-/

namespace VersionedTypes.Pattern

/-! ## Members -/

/-- The names of classes of ASCII. -/
def classNames : List String :=
  ["alnum", "alpha", "ascii", "blank", "cntrl", "digit", "graph", "lower", "print", "punct",
    "space", "upper", "word", "xdigit"]

/-- Read the name of a class behind a bracket, and whether the class is negated. -/
def readClassName? : List Char → Option (Bool × List Char)
  | ':' :: cs =>
    let negated := cs.head? = some '^'
    let cs := if negated then cs.tail else cs
    let name := cs.takeWhile fun c => c != ':'
    match cs.drop name.length with
    | ':' :: ']' :: rest =>
      if classNames.contains (String.ofList name) then some (negated, rest) else none
    | _ => none
  | _ => none

namespace Flags

/-- Negated classes are supported, as far as they match whole characters. -/
def allowsClass (f : Flags) (negated : Bool) : Bool := f.unicode || !negated

/-- Named classes are supported, as far as there are cases of letters. -/
def allowsClassName (f : Flags) (negated : Bool) : Bool :=
  if f.unicode then !f.caseless else !negated

/-- The text behind the blanks and the signs of comments in it, or else all of it. -/
def beyondBlanks (cs : List Char) : List Char :=
  match cs.dropWhile Text.isBlank with
  | '#' :: rest =>
    match rest.dropWhile Text.isBlank with
    | [] => cs
    | rest => rest
  | [] => cs
  | rest => rest

/-- The character that is seen next. -/
def peek (f : Flags) (cs : List Char) : Option Char :=
  (if f.verbose then beyondBlanks cs else cs).head?

/-- Read a character or a range of characters. A dash is one of the characters in front of another
dash and of the closing bracket. -/
def readMember? (f : Flags) (cs : List Char) : Option (List Char) := do
  let (a, rest) ← f.readAtom? cs
  match f.skip rest with
  | [] => none
  | '-' :: behind =>
    if f.peek behind = some ']' ∨ f.peek behind = some '-' then
      if a.isSupportedInClass f then pure ('-' :: behind) else none
    else
      let (b, rest) ← f.readAtom? (f.skip behind)
      let first ← a.code?
      let last ← b.code?
      if a.isSupportedInClass f ∧ b.isSupportedInClass f ∧ first ≤ last then pure rest else none
  | rest => if a.isSupportedInClass f then pure rest else none

end Flags

/-! ## Brackets -/

/-- A class whose bracket is open. -/
structure OpenClass where
  /-- How deep what is in front of the last operator is nested. -/
  left : Option Nat := none
  /-- What is behind the last operator. -/
  members : Series := {}
  deriving DecidableEq, Repr

namespace OpenClass

/-- The class with one more member. -/
def push (o : OpenClass) (depth : Nat) : OpenClass := { o with members := o.members.push depth }

/-- How deep what is in the bracket is nested. -/
def nesting (o : OpenClass) : Nat :=
  match o.left with
  | some depth => max depth o.members.nesting + 1
  | none => o.members.nesting

/-- The class behind one more operator. -/
def operator (o : OpenClass) : OpenClass := { left := some o.nesting }

end OpenClass

namespace Flags

/-- Read dashes, which stand for themselves behind an opening bracket. -/
def readDashes? (f : Flags) : (fuel : Nat) → OpenClass → List Char → Option (OpenClass × List Char)
  | 0, _, _ => none
  | fuel + 1, o, cs =>
    match f.skip cs with
    | [] => none
    | '-' :: rest =>
      if (Atom.char '-').isSupportedInClass f then f.readDashes? fuel (o.push 0) rest else none
    | rest => some (o, rest)

/-- Read what has a meaning of its own behind an opening bracket: a sign of negation, dashes, or a
bracket that closes nothing. -/
def openClass? (f : Flags) (cs : List Char) : Option (OpenClass × List Char) := do
  let cs := f.skip cs
  let negated := cs.head? = some '^'
  let (o, rest) ← f.readDashes? (cs.length + 1) {} (if negated then cs.tail else cs)
  if !f.allowsClass negated then none
  else
    match rest with
    | ']' :: behind =>
      if o.members.count ≠ 0 then pure (o, rest)
      else if (Atom.char ']').isSupportedInClass f then pure (o.push 0, behind)
      else none
    | _ => pure (o, rest)

/-- Read up to the bracket that closes the outermost class, and tell how deep it is nested. -/
def readMembers? (f : Flags) : (fuel : Nat) → OpenClass → (outer : List OpenClass) → List Char →
    Option (Nat × List Char)
  | 0, _, _, _ => none
  | fuel + 1, o, outer, cs =>
    match f.skip cs with
    | [] => none
    | '[' :: rest =>
      match readClassName? rest with
      | some (negated, rest) =>
        if f.allowsClassName negated then f.readMembers? fuel (o.push 0) outer rest else none
      | none => do
        let (inner, rest) ← f.openClass? rest
        f.readMembers? fuel inner (o :: outer) rest
    | ']' :: rest =>
      match outer with
      | [] => some (o.nesting + 1, rest)
      | parent :: outer => f.readMembers? fuel (parent.push (o.nesting + 1)) outer rest
    | '&' :: '&' :: rest | '-' :: '-' :: rest | '~' :: '~' :: rest =>
      f.readMembers? fuel o.operator outer rest
    | cs => do
      let rest ← f.readMember? cs
      f.readMembers? fuel (o.push 0) outer rest

/-- Read a class behind its opening bracket, and tell how deep it is nested. -/
def readClass? (f : Flags) (cs : List Char) : Option (Nat × List Char) := do
  let (o, rest) ← f.openClass? cs
  f.readMembers? (rest.length + 1) o [] rest

end Flags

end VersionedTypes.Pattern
