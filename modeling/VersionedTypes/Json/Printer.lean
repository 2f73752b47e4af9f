import VersionedTypes.Json.Basic

/-!
# Printed JSON

A value is printed on one line without spaces, or over several lines that are indented by two
spaces for each level.

* `Json.quoted`: a text between double quotes; quotes, backslashes and controls are escaped;
* **`Json.compact`**, **`Json.pretty`**.
-/

namespace VersionedTypes.Json

/-- The digit of a number below sixteen. -/
def hexDigit (n : Nat) : Char := Nat.digitChar (n % 16)

/-- A character as it stands in a printed string. -/
def escaped (c : Char) : List Char :=
  match c with
  | '"' => ['\\', '"']
  | '\\' => ['\\', '\\']
  | '\x08' => ['\\', 'b']
  | '\x0c' => ['\\', 'f']
  | '\n' => ['\\', 'n']
  | '\r' => ['\\', 'r']
  | '\t' => ['\\', 't']
  | c =>
    if c.toNat < 0x20 then ['\\', 'u', '0', '0', hexDigit (c.toNat / 16), hexDigit c.toNat] else [c]

/-- A text between double quotes. -/
def quoted (s : String) : List Char := '"' :: s.toList.flatMap escaped ++ ['"']

/-- Pieces with a separator between any two of them. -/
def separated (separator : List Char) : List (List Char) → List Char
  | [] => []
  | [x] => x
  | x :: y :: rest => x ++ separator ++ separated separator (y :: rest)

mutual

/-- The characters of a value on one line. -/
def compactChars : Json → List Char
  | .null => "null".toList
  | .bool true => "true".toList
  | .bool false => "false".toList
  | .number n => n.text.toList
  | .string s => quoted s
  | .array items => '[' :: separated [','] (compactItems items) ++ [']']
  | .object members => '\x7b' :: separated [','] (compactMembers members) ++ ['\x7d']

/-- The elements of a list, each in compact form. -/
def compactItems : List Json → List (List Char)
  | [] => []
  | v :: vs => compactChars v :: compactItems vs

/-- The members of an object in compact form, with nothing behind the colon. -/
def compactMembers : List (String × Json) → List (List Char)
  | [] => []
  | (k, v) :: ms => (quoted k ++ ':' :: compactChars v) :: compactMembers ms

end

/-- A line break and the indentation of a level. -/
def lineBreak (level : Nat) : List Char := '\n' :: List.replicate (2 * level) ' '

/-- Pieces on lines of their own between brackets; nothing stands between the brackets if there are
none. -/
def block (level : Nat) (opening closing : Char) (pieces : List (List Char)) : List Char :=
  if pieces.isEmpty then [opening, closing]
  else
    opening :: lineBreak (level + 1) ++ separated (',' :: lineBreak (level + 1)) pieces ++
      lineBreak level ++ [closing]

mutual

/-- The characters of a value over several lines, from an indentation level on. -/
def prettyChars (level : Nat) : Json → List Char
  | .array items => block level '[' ']' (prettyItems (level + 1) items)
  | .object members => block level '\x7b' '\x7d' (prettyMembers (level + 1) members)
  | v => compactChars v

/-- The elements of a list, each spread over lines from the given level on. -/
def prettyItems (level : Nat) : List Json → List (List Char)
  | [] => []
  | v :: vs => prettyChars level v :: prettyItems level vs

/-- The members of an object spread over lines, with a blank behind the colon. -/
def prettyMembers (level : Nat) : List (String × Json) → List (List Char)
  | [] => []
  | (k, v) :: ms => (quoted k ++ ':' :: ' ' :: prettyChars level v) :: prettyMembers level ms

end

/-- The value on one line. -/
def compact (v : Json) : String := String.ofList v.compactChars

/-- The value over several lines. -/
def pretty (v : Json) : String := String.ofList (v.prettyChars 0)

end VersionedTypes.Json
