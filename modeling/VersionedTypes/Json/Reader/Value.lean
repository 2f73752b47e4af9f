import VersionedTypes.Json.Reader

/-!
# Reading and skipping values

A value is read as a whole, down to a bounded depth. A value that nobody asks for is skipped: its
brackets, strings and numbers have to be well-formed, but neither their depth nor their size counts.

* `nested`: one level further down;
* `readItems`, `readMembers`: the inside of brackets;
* **`readValue`**, **`skipValue`**.
-/

namespace VersionedTypes.Json.Reader

variable {α : Type}

/-- Enter brackets, if another level is allowed. -/
def nested (inside : Nat → Reader α) : (depth : Nat) → Reader α
  | 0 => failNext .recursionLimit
  | depth + 1 => do
    advance
    inside depth

/-- The items of a list, of which there are at most `fuel`. -/
def itemsFrom (item : Reader α) : (fuel : Nat) → (first : Bool) → Reader (List α)
  | 0, _ => fail .endInList
  | fuel + 1, first => do
    if ← moreItems first then
      let x ← item
      let xs ← itemsFrom item fuel false
      pure (x :: xs)
    else pure []

/-- The items of a list behind its opening bracket or behind an item. -/
def readItems (item : Reader α) (first : Bool) : Reader (List α) := do
  let c ← get
  itemsFrom item (c.rest.length + 1) first

/-- The members of an object, of which there are at most `fuel`, folded into `s`. -/
def membersFrom {σ : Type} (member : String → σ → Reader σ) :
    (fuel : Nat) → (first : Bool) → σ → Reader σ
  | 0, _, _ => fail .endInObject
  | fuel + 1, first, s => do
    if ← moreMembers first then
      let key ← readString
      let s' ← member key s
      membersFrom member fuel false s'
    else pure s

/-- The members of an object behind its opening brace, folded into `s`. A member is read from its
colon on. -/
def readMembers {σ : Type} (member : String → σ → Reader σ) (s : σ) : Reader σ := do
  let c ← get
  membersFrom member (c.rest.length + 1) true s

/-- Collect the members of an object. -/
def collect (value : Reader Json) (key : String) (members : List (String × Json)) :
    Reader (List (String × Json)) := do
  colon
  let v ← value
  pure (members ++ [(key, v)])

/-- A value; `inner` reads the values within brackets, unless these would be nested too deeply. -/
def readValueOver (inner : Option (Reader Json)) : Reader Json := do
  match ← token with
  | none => failNext .endInValue
  | some '[' =>
    match inner with
    | none => failNext .recursionLimit
    | some value =>
      advance
      Json.array <$> enclosed (readItems value true) endOfList
  | some '\x7b' =>
    match inner with
    | none => failNext .recursionLimit
    | some value =>
      advance
      Json.object <$> enclosed (readMembers (collect value) []) endOfObject
  | some '"' => Json.string <$> readString
  | some c =>
    if c = 'n' then (fun _ => Json.null) <$> expectWord "null".toList
    else if c = 't' then (fun _ => Json.bool true) <$> expectWord "true".toList
    else if c = 'f' then (fun _ => Json.bool false) <$> expectWord "false".toList
    else if c = '-' ∨ isDigit c then Json.number <$> readNumber
    else failNext .expectedValue

/-- A value that contains at most `depth` levels of brackets. -/
def readValue : (depth : Nat) → Reader Json
  | 0 => readValueOver none
  | depth + 1 => readValueOver (some (readValue depth))

/-- Fail on a value of another form than expected. A list or an object is not looked into, any
other value is read first. -/
def unexpected (expected : String) : Reader α := do
  match ← token with
  | some '[' => fail (.invalidType .sequence expected)
  | some '\x7b' => fail (.invalidType .map expected)
  | _ =>
    let v ← readValue 0
    fail (.invalidType v.found expected)

/-! ## Skipping -/

/-- The two sorts of brackets. -/
inductive Bracket where
  | list
  | object
  deriving DecidableEq

/-- The character at the other end. -/
def Bracket.closing : Bracket → Char
  | list => ']'
  | object => '\x7d'

/-- The text ends within the brackets. -/
def Bracket.ended : Bracket → Problem
  | list => .endInList
  | object => .endInObject

/-- Neither a comma nor the end of the brackets follows. -/
def Bracket.unclosed : Bracket → Problem
  | list => .expectedListCommaOrEnd
  | object => .expectedObjectCommaOrEnd

/-- Skip an escape, behind the backslash. -/
def skipEscape : Reader Unit := do
  match ← peek with
  | none => fail .endInString
  | some 'u' =>
    advance
    let _ ← hexQuad
  | some c => if (shortEscape? c).isSome then advance else failNext .invalidEscape

/-- Skip a string of at most `fuel` characters up to its closing quote. -/
def skipStringChars : (fuel : Nat) → Reader Unit
  | 0 => fail .endInString
  | fuel + 1 => do
    match ← peek with
    | none => fail .endInString
    | some '"' => advance
    | some '\\' =>
      advance
      skipEscape
      skipStringChars fuel
    | some c =>
      if isControl c then fail .controlCharacter
      else
        advance
        skipStringChars fuel

/-- Skip a string from its opening quote on. -/
def skipString : Reader Unit := do
  advance
  let c ← get
  skipStringChars (c.rest.length + 1)

/-- Skip digits, of which there has to be one. -/
def skipDigits : Reader Unit := do
  if (← takeWhile isDigit).isEmpty then failNext .invalidNumber

/-- Skip an exponent, if there is one. -/
def skipExponent : Reader Unit := do
  let e ← peek
  if e = some 'e' ∨ e = some 'E' then
    advance
    let sign ← peek
    if sign = some '+' ∨ sign = some '-' then advance
    skipDigits

/-- Skip a number from its sign or first digit on. -/
def skipNumber : Reader Unit := do
  if (← peek) = some '-' then advance
  if (← peek) = some '0' then
    advance
    match ← peek with
    | some c => if isDigit c then failNext .invalidNumber
    | none => pure ()
  else skipDigits
  if (← peek) = some '.' then
    advance
    skipDigits
  skipExponent

/-- Skip the name and the colon of a member, where a member has to follow. -/
def skipKey : Bracket → Reader Unit
  | .list => pure ()
  | .object => do
    match ← token with
    | some '"' =>
      skipString
      colon
    | some _ => failNext .keyNotAString
    | none => failNext .endInObject

/-- Skip the beginning of a value: the whole of a scalar, or the opening bracket of a list or an
object, which goes on top of the brackets that are open. The flag tells whether a value is
complete. -/
def skipStart (opened : List Bracket) : Reader (Bool × List Bracket) := do
  match ← token with
  | none => failNext .endInValue
  | some '[' =>
    advance
    pure (false, .list :: opened)
  | some '\x7b' =>
    advance
    pure (false, .object :: opened)
  | some c =>
    if c = 'n' then expectWord "null".toList
    else if c = 't' then expectWord "true".toList
    else if c = 'f' then expectWord "false".toList
    else if c = '"' then skipString
    else if c = '-' ∨ isDigit c then skipNumber
    else failNext .expectedValue
    pure (true, opened)

/-- Skip closing brackets and then a comma. The result is none when all brackets are closed, and
else the brackets within which another value follows. -/
def skipEnds (complete : Bool) : List Bracket → Reader (Option (List Bracket))
  | [] => pure none
  | b :: bs => do
    match ← token with
    | none => failNext b.ended
    | some c =>
      if c = b.closing then
        advance
        skipEnds true bs
      else if !complete then
        skipKey b
        pure (some (b :: bs))
      else if c = ',' then
        advance
        skipKey b
        pure (some (b :: bs))
      else failNext b.unclosed

/-- Skip values until all brackets are closed, at most `fuel` of them. -/
def skipFrom : (fuel : Nat) → List Bracket → Reader Unit
  | 0, _ => fail .endInValue
  | fuel + 1, opened => do
    let (complete, opened) ← skipStart opened
    match ← skipEnds complete opened with
    | none => pure ()
    | some opened => skipFrom fuel opened

/-- Skip a value. -/
def skipValue : Reader Unit := do
  let c ← get
  skipFrom (c.rest.length + 1) []

end VersionedTypes.Json.Reader
