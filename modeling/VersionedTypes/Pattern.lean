import VersionedTypes.Pattern.Class

/-!
# Patterns

Regular expressions are recognized here, and not matched against anything: their groups and classes
are closed, what is repeated is there, and all of it is supported. Flags in a group hold up to its
end.

* `readFlags?`, `readName?`: what may stand at the beginning of a group;
* `OpenGroup`, `Scanner`, `Scanner.step?`: what has been opened so far;
* `maxNesting`, **`isPattern`**.
-/

namespace VersionedTypes.Pattern

/-! ## The beginning of a group -/

/-- Flags that are named once, with one sign of negation that is followed by others. -/
def areFlags (names : List Char) : Bool :=
  (names.all fun c => ['i', 'm', 's', 'U', 'u', 'R', 'x', '-'].contains c) &&
    decide names.Nodup && names.getLast? != some '-'

/-- The value of a flag behind names of flags, of which those behind the sign are turned off. -/
def flagValue (names : List Char) (name : Char) (old : Bool) : Bool :=
  if names.contains name then (names.takeWhile fun c => c != '-').contains name else old

/-- The flags with new values. -/
def Flags.set (f : Flags) (names : List Char) : Flags :=
  { caseless := flagValue names 'i' f.caseless,
    unicode := flagValue names 'u' f.unicode,
    verbose := flagValue names 'x' f.verbose }

/-- Read names of flags, up to a colon or the bracket that closes the group. -/
def readFlags? (cs : List Char) : Option (List Char × List Char) :=
  let names := cs.takeWhile fun c => c != ':' && c != ')'
  if areFlags names then some (names, cs.drop names.length) else none

/-- The text can be the name of a group. -/
def isGroupName : List Char → Bool
  | [] => false
  | c :: cs =>
    (c == '_' || Text.isAlphabetic c) &&
      cs.all fun c => c == '_' || c == '.' || c == '[' || c == ']' || Text.isAlphanumeric c

/-- Read the name of a group, which no other group has. -/
def readName? (names : List (List Char)) (cs : List Char) : Option (List Char × List Char) :=
  let name := cs.takeWhile fun c => c != '>'
  match cs.drop name.length with
  | _ :: rest => if isGroupName name ∧ name ∉ names then some (name, rest) else none
  | [] => none

/-! ## Groups -/

/-- A group whose bracket is open, or the whole pattern. -/
structure OpenGroup where
  /-- The alternatives that are complete. -/
  branches : Series := {}
  /-- The parts of the last alternative. -/
  items : Series := {}
  /-- How deep the last part is nested, if it can be repeated. -/
  last : Option Nat := none
  deriving DecidableEq, Repr

namespace OpenGroup

/-- The group with one more part. -/
def push (g : OpenGroup) (depth : Nat) : OpenGroup :=
  { g with items := g.items.push depth, last := some depth }

/-- The group with a part that cannot be repeated. -/
def pushFlags (g : OpenGroup) : OpenGroup := { g with items := g.items.push 0, last := none }

/-- The group with its last part repeated. -/
def repeatLast? (g : OpenGroup) : Option OpenGroup :=
  g.last.map fun depth =>
    { g with items := ⟨g.items.count, max g.items.depth (depth + 1)⟩, last := some (depth + 1) }

/-- The group with one more alternative. -/
def alternate (g : OpenGroup) : OpenGroup := { branches := g.branches.push g.items.nesting }

/-- How deep what is in the group is nested. -/
def nesting (g : OpenGroup) : Nat := (g.branches.push g.items.nesting).nesting

end OpenGroup

/-- How far a pattern has been read, and what is still open. -/
structure Scanner where
  flags : Flags := {}
  /-- The names of groups. -/
  names : List (List Char) := []
  group : OpenGroup := {}
  /-- The groups around it, with the flags that hold behind it. -/
  outer : List (Flags × OpenGroup) := []

namespace Scanner

/-- Open a group, in which other flags hold. -/
def enter (s : Scanner) (flags : Flags) : Scanner :=
  { s with flags, group := {}, outer := (s.flags, s.group) :: s.outer }

/-- Read what stands behind a bracket that opens a group. Nothing looks ahead or behind. -/
def openGroup? (s : Scanner) (cs : List Char) : Option (Scanner × List Char) :=
  match s.flags.skip cs with
  | '?' :: '=' :: _ | '?' :: '!' :: _ | '?' :: '<' :: '=' :: _ | '?' :: '<' :: '!' :: _ => none
  | '?' :: 'P' :: '<' :: rest | '?' :: '<' :: rest => do
    let (name, rest) ← readName? s.names rest
    pure ({ s with names := name :: s.names }.enter s.flags, rest)
  | '?' :: rest => do
    let (names, rest) ← readFlags? rest
    match rest with
    | ':' :: rest => pure (s.enter (s.flags.set names), rest)
    | _ :: rest =>
      if names.isEmpty then none
      else pure ({ s with flags := s.flags.set names, group := s.group.pushFlags }, rest)
    | [] => none
  | rest => some (s.enter s.flags, rest)

/-- Close a group. -/
def closeGroup? (s : Scanner) : Option Scanner :=
  match s.outer with
  | (flags, group) :: outer =>
    some { s with flags, group := group.push (s.group.nesting + 1), outer }
  | [] => none

/-- Add an atom. -/
def pushAtom? (s : Scanner) (a : Atom) : Option Scanner :=
  if a.isSupported s.flags then some { s with group := s.group.push 0 } else none

/-- Repeat the last part; a question mark right behind it belongs to it. -/
def repeatLast? (s : Scanner) (cs : List Char) : Option (Scanner × List Char) :=
  s.group.repeatLast?.map fun group =>
    ({ s with group }, if cs.head? = some '?' then cs.tail else cs)

/-- Read one part. Counted repetitions are not among them. -/
def step? (s : Scanner) : List Char → Option (Scanner × List Char)
  | [] => none
  | '(' :: cs => s.openGroup? cs
  | ')' :: cs => s.closeGroup?.map (·, cs)
  | '|' :: cs => some ({ s with group := s.group.alternate }, cs)
  | '[' :: cs =>
    (s.flags.readClass? cs).map fun (depth, rest) => ({ s with group := s.group.push depth }, rest)
  | '?' :: cs | '*' :: cs | '+' :: cs => s.repeatLast? cs
  | '\x7b' :: _ => none
  | '.' :: cs => (s.pushAtom? .any).map (·, cs)
  | '^' :: cs | '$' :: cs => (s.pushAtom? .lineEdge).map (·, cs)
  | cs => do
    let (a, rest) ← s.flags.readAtom? cs
    let s ← s.pushAtom? a
    pure (s, rest)

/-- Read all parts. -/
def run? : (fuel : Nat) → Scanner → List Char → Option Scanner
  | 0, _, _ => none
  | fuel + 1, s, cs =>
    match s.flags.skip cs with
    | [] => some s
    | cs => do
      let (s, rest) ← s.step? cs
      s.run? fuel rest

end Scanner

/-! ## Recognition -/

/-- How deep a pattern may be nested. -/
def maxNesting : Nat := 250

/-- The text is a pattern. -/
def isPattern (cs : List Char) : Bool :=
  (Scanner.run? (cs.length + 1) {} cs).any fun s =>
    s.outer.isEmpty && decide (s.group.nesting ≤ maxNesting)

end VersionedTypes.Pattern
