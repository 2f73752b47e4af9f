import VersionedTypes.Json.Reader.Value
import VersionedTypes.Ordered

/-!
# Formats

A format tells how a value of some type is written in JSON. It reads the value straight from a text,
or takes it from a JSON value that was read before; the two accept the same forms, but a mistake
that is found in a text is reported where it stands.

* `Format`, `Format.map`, **`Format.parse`**;
* scalars: `string`, `word32`, `choice`;
* collections: `listAs`, `list`, `names`, `table`;
* `Column`, `columnOf`, `record`: an object, or a list of the members in order;
* `tagged`: an object or a list whose `kind` selects the form of the rest.
-/

namespace VersionedTypes

/-- How a value is written. -/
structure Format (α : Type) where
  /-- Read the value from a text, within at most so many further levels of brackets. -/
  read : (depth : Nat) → Json.Reader α
  /-- Take the value from a JSON value. -/
  ofJson : Json → Except Json.Problem α

namespace Format

open Json Json.Reader

variable {α β σ : Type}

/-- The format of values that stand for others. -/
def map (f : α → β) (format : Format α) : Format β where
  read depth := f <$> format.read depth
  ofJson v := (format.ofJson v).map f

/-- A result, or a failure here. -/
def placed : Except Problem α → Reader α
  | .ok a => pure a
  | .error p => fail p

/-! ## Scalars -/

/-- Read a scalar and convert it. No scalar is a list or an object, so these are not looked into. -/
def readScalar (convert : Json → Except Problem α) : Reader α := do
  match ← token with
  | some '[' => placed (convert (.array []))
  | some '\x7b' => placed (convert (.object []))
  | _ => do placed (convert (← readValue 0))

/-- The format of scalars that are written alike everywhere. -/
def scalar (convert : Json → Except Problem α) : Format α where
  read _ := readScalar convert
  ofJson := convert

/-- A text. -/
def string : Format String :=
  scalar fun
    | .string s => .ok s
    | v => .error (.invalidType v.found "a string")

/-- A natural number of 32 bits. -/
def word32 : Format UInt32 :=
  scalar fun
    | .number (.integer i) =>
      if 0 ≤ i ∧ i < UInt32.size then .ok (UInt32.ofNat i.toNat)
      else .error (.invalidValue (.number (.integer i)) "u32")
    | v => .error (.invalidType v.found "u32")

/-- The option of the given name. -/
def optionNamed (options : List (String × α)) (name : String) : Except Problem α :=
  match options.find? (·.1 == name) with
  | some o => .ok o.2
  | none => .error (.unknownVariant name (options.map Prod.fst))

/-- An option by its name. -/
def optionOfName (options : List (String × α)) : Json → Except Problem α
  | .string s => optionNamed options s
  | v => .error (.invalidType v.found "variant identifier")

/-- An option by its name, or by its place among the options. -/
def optionOfJson (options : List (String × α)) : Json → Except Problem α
  | .string s => optionNamed options s
  | .number (.integer i) =>
    if i < 0 then .error (.invalidType (.number (.integer i)) "variant identifier")
    else
      match options[i.toNat]? with
      | some o => .ok o.2
      | none =>
        .error (.invalidValue (.number (.integer i)) s!"variant index 0 <= i < {options.length}")
  | v => .error (.invalidType v.found "variant identifier")

/-- Nothing, as the value of a choice that is written as an object. -/
def unitOfJson : Json → Except Problem Unit
  | .null | .object [] => .ok ()
  | v => .error (.invalidType v.found "unit")

/-- A choice among names: the name, or an object that holds nothing under the name. -/
def choice (options : List (String × α)) : Format α where
  read depth := do
    match ← token with
    | none => failNext .endInValue
    | some '"' => readScalar (optionOfName options)
    | some '\x7b' =>
      nested (fun _ => do
        match ← token with
        | some '"' => pure ()
        | some '\x7d' => failNext .expectedValue
        | some _ => failNext .keyNotAString
        | none => failNext .endInObject
        let a ← readScalar (optionOfName options)
        colon
        readScalar fun
          | .null => .ok ()
          | v => .error (.invalidType v.found "unit")
        match ← token with
        | some '\x7d' => advance
        | some _ => fail .expectedValue
        | none => fail .endInObject
        pure a) depth
    | some _ => failNext .expectedValue
  ofJson
    | .string s => optionNamed options s
    | .object [(name, v)] => do
      let a ← optionNamed options name
      unitOfJson v
      pure a
    | .object _ => .error (.invalidValue .map "map with a single key")
    | v => .error (.invalidType v.found "string or map")

/-! ## Collections -/

/-- A list of items; `expected` is what messages call it. -/
def listAs (expected : String) (item : Format α) : Format (List α) where
  read depth := do
    match ← token with
    | some '[' => nested (fun d => enclosed (readItems (item.read d) true) endOfList) depth
    | _ => unexpected expected
  ofJson
    | .array items => items.mapM item.ofJson
    | v => .error (.invalidType v.found expected)

/-- A list of items. -/
def list (item : Format α) : Format (List α) := listAs "a sequence" item

/-- A set of names. -/
def names : Format NameSet := (listAs "a set" string).map NameSet.ofList

/-- A table of texts; of values under one key the last counts. -/
def table : Format (OrderedMap String) where
  read depth := do
    match ← token with
    | some '\x7b' =>
      nested (fun d =>
        enclosed (readMembers (fun key m => do
          colon
          m.insert key <$> string.read d) OrderedMap.empty) endOfObject) depth
    | _ => unexpected "a map"
  ofJson
    | .object members =>
      members.foldlM (fun m e => (string.ofJson e.2).map (m.insert e.1)) OrderedMap.empty
    | v => .error (.invalidType v.found "a map")

/-! ## Records -/

/-- A member of a record, which is kept in a draft of the record until all are known. -/
structure Column (σ : Type) where
  name : String
  /-- A record without this member is refused. -/
  required : Bool
  isFilled : σ → Bool
  read : Nat → σ → Reader σ
  ofJson : Json → σ → Except Problem σ

/-- The column `name` with values of the given format. -/
def columnOf (name : String) (required : Bool) (format : Format α) (get : σ → Option α)
    (set : σ → α → σ) : Column σ where
  name
  required
  isFilled s := (get s).isSome
  read depth s := set s <$> format.read depth
  ofJson v s := (format.ofJson v).map (set s)

/-- A member that has to be there. -/
def require (name : String) : Option α → Except Problem α
  | some a => .ok a
  | none => .error (.missingField name)

/-- A number of elements. -/
def elements (n : Nat) : String := if n = 1 then "1 element" else s!"{n} elements"

/-- A list ends in front of the member with index `i`. -/
def tooShort (title : String) (columns : List (Column σ)) (i : Nat) : Problem :=
  .invalidLength i s!"struct {title} with {elements columns.length}"

/-- Read members in the order of their columns, from the one with index `i` on. -/
def readColumns (tooShort : Nat → Problem) (depth : Nat) :
    (i : Nat) → List (Column σ) → σ → Reader σ
  | _, [], s => pure s
  | i, c :: cs, s => do
    if ← moreItems (i == 0) then
      let s' ← c.read depth s
      readColumns tooShort depth (i + 1) cs s'
    else if c.required then failUnplaced (tooShort i)
    else readColumns tooShort depth (i + 1) cs s

/-- Take members in the order of their columns; `i` of them were taken before. -/
def takeColumns (tooShort : Nat → Problem) :
    (i : Nat) → List (Column σ) → List Json → σ → Except Problem (σ × List Json)
  | _, [], items, s => .ok (s, items)
  | i, c :: cs, [], s =>
    if c.required then .error (tooShort i) else takeColumns tooShort (i + 1) cs [] s
  | i, c :: cs, v :: items, s =>
    match c.ofJson v s with
    | .ok s' => takeColumns tooShort (i + 1) cs items s'
    | .error p => .error p

/-- Read the member `key` from its colon on. Members without a column are skipped. -/
def readMember (columns : List (Column σ)) (depth : Nat) (key : String) (s : σ) : Reader σ :=
  match columns.find? (·.name == key) with
  | some c =>
    if c.isFilled s then failUnplaced (.duplicateField key)
    else do
      colon
      c.read depth s
  | none => do
    colon
    skipValue
    pure s

/-- Take a member. Members without a column are left out. -/
def takeMember (columns : List (Column σ)) (s : σ) (member : String × Json) : Except Problem σ :=
  match columns.find? (·.name == member.1) with
  | some c => if c.isFilled s then .error (.duplicateField member.1) else c.ofJson member.2 s
  | none => .ok s

/-- A record: an object with the members of the columns, or a list of them in order, in which
members may be left out at the end. `finish` makes the record of a draft. -/
def record (title : String) (columns : List (Column σ)) (blank : σ)
    (finish : σ → Except Problem α) : Format α where
  read depth := do
    match ← token with
    | some '[' =>
      nested (fun d => enclosed (do
        let s ← readColumns (tooShort title columns) d 0 columns blank
        ofExcept (finish s)) endOfList) depth
    | some '\x7b' =>
      nested (fun d => enclosed (do
        let s ← readMembers (readMember columns d) blank
        ofExcept (finish s)) endOfObject) depth
    | _ => unexpected s!"struct {title}"
  ofJson
    | .array items => do
      let (s, rest) ← takeColumns (tooShort title columns) 0 columns items blank
      let a ← finish s
      if rest.isEmpty then .ok a
      else
        .error (.invalidLength (columns.length + rest.length)
          s!"{elements columns.length} in sequence")
    | .object members => do
      let s ← members.foldlM (takeMember columns) blank
      finish s
    | v => .error (.invalidType v.found s!"struct {title}")

/-! ## Tagged values -/

/-- The name of the member that selects a form. -/
def kindKey : String := "kind"

/-- Take the kind out of the members of an object: the kind, if it was there, and the rest. -/
def splitKind (options : List (String × α)) :
    (kind : Option α) → (rest : List (String × Json)) → List (String × Json) →
      Except Problem (Option α × List (String × Json))
  | kind, rest, [] => .ok (kind, rest)
  | kind, rest, (k, v) :: members =>
    if k = kindKey then
      match kind with
      | some _ => .error (.duplicateField kindKey)
      | none =>
        match optionOfJson options v with
        | .ok a => splitKind options (some a) rest members
        | .error p => .error p
    else splitKind options kind (rest ++ [(k, v)]) members

/-- Read a member into the kind or the rest. -/
def readTagged (options : List (String × α)) (depth : Nat) (key : String)
    (s : Option α × List (String × Json)) : Reader (Option α × List (String × Json)) :=
  if key = kindKey then
    match s.1 with
    | some _ => failUnplaced (.duplicateField kindKey)
    | none => do
      colon
      let a ← readScalar (optionOfName options)
      pure (some a, s.2)
  else do
    let rest ← collect (readValue depth) key s.2
    pure (s.1, rest)

/-- A value of several forms. The kind is a member of an object, or the first item of a list; the
other members or items are in the form that it selects, and are read as a whole before they are
looked into. -/
def tagged (title : String) (options : List (String × (Json → Except Problem α))) : Format α where
  read depth := do
    match ← token with
    | some '[' =>
      let (form, rest) ← nested (fun d => enclosed (do
        if ← moreItems true then
          let form ← readScalar (optionOfName options)
          let items ← readItems (readValue d) false
          pure (form, Json.array items)
        else failUnplaced (.missingField kindKey)) endOfList) depth
      ofExcept (form rest)
    | some '\x7b' =>
      let (form, rest) ← nested (fun d => enclosed (do
        match ← readMembers (readTagged options d) (none, []) with
        | (some form, members) => pure (form, Json.object members)
        | (none, _) => failUnplaced (.missingField kindKey)) endOfObject) depth
      ofExcept (form rest)
    | _ => unexpected s!"internally tagged enum {title}"
  ofJson
    | .array [] => .error (.missingField kindKey)
    | .array (kind :: rest) => do (← optionOfJson options kind) (.array rest)
    | .object members => do
      match ← splitKind options none [] members with
      | (some form, rest) => form (.object rest)
      | (none, _) => .error (.missingField kindKey)
    | v => .error (.invalidType v.found s!"internally tagged enum {title}")

/-! ## Whole texts -/

/-- The line and the column of a byte offset: the newlines in front of it, and the bytes since the
last of them. -/
def lineAndColumn (line column : Nat) : (offset : Nat) → List Char → Nat × Nat
  | 0, _ => (line, column)
  | _, [] => (line, column)
  | n + 1, c :: cs =>
    if c = '\n' then lineAndColumn (line + 1) 0 n cs
    else if c.utf8Size ≤ n + 1 then
      lineAndColumn line (column + c.utf8Size) (n + 1 - c.utf8Size) cs
    else (line, column + (n + 1))

/-- The levels of brackets that a text may have. -/
def maxDepth : Nat := 127

/-- The value and then the end of the text. -/
def readAll (format : Format α) : Reader α := do
  let a ← format.read maxDepth
  match ← token with
  | none => pure a
  | some _ => failNext .trailingCharacters

/-- The value that a text stands for. -/
def parse (format : Format α) (text : String) : Except ReadError α :=
  match format.readAll ⟨text.toList, 0⟩ with
  | .ok (a, _) => .ok a
  | .error e => .error ⟨e.problem, e.place.map fun offset => lineAndColumn 1 0 offset text.toList⟩

end Format

end VersionedTypes
