import VersionedTypes.Text.Ranges

/-!
# Quoted text in messages

Messages show a text between double quotes, with escapes for what would not be seen: the usual
short ones, and the code point in braces for characters that are not printable or that extend
another character.

* `isPrintable`, `escape`;
* **`quote`**: a text in quotes.
-/

namespace VersionedTypes.Text

/-- The character shows up by itself. -/
def isPrintable (c : Char) : Bool :=
  if c.toNat < 0x7f then 0x20 ≤ c.toNat
  else !inRanges unprintableRanges c && !inRanges combiningRanges c && !inRanges ignorableRanges c

/-- A character as it stands between quotes. -/
def escape (c : Char) : String :=
  match c with
  | '\x00' => "\\0"
  | '\t' => "\\t"
  | '\n' => "\\n"
  | '\r' => "\\r"
  | '"' => "\\\""
  | '\\' => "\\\\"
  | c =>
    if isPrintable c then c.toString
    else "\\u\x7b" ++ String.ofList (Nat.toDigits 16 c.toNat) ++ "\x7d"

/-- The text between double quotes. -/
def quote (s : String) : String := "\"" ++ String.join (s.toList.map escape) ++ "\""

end VersionedTypes.Text
