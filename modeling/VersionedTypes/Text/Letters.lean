import VersionedTypes.Text.Ranges

/-!
# Letters and digits

* `isAlphabetic`, `isAlphanumeric`: letters and numbers of all scripts;
* `decimalValue?`, `hexValue?`: the value of a digit;
* **`digitsValue`**: the number that digits stand for.
-/

namespace VersionedTypes.Text

/-- A letter. -/
def isAlphabetic (c : Char) : Bool := inRanges alphabeticRanges c

/-- A letter or a number. -/
def isAlphanumeric (c : Char) : Bool := isAlphabetic c || inRanges numberRanges c

/-- The value of a decimal digit. -/
def decimalValue? (c : Char) : Option Nat :=
  if '0' ≤ c ∧ c ≤ '9' then some (c.toNat - '0'.toNat) else none

/-- The value of a hexadecimal digit. -/
def hexValue? (c : Char) : Option Nat :=
  if '0' ≤ c ∧ c ≤ '9' then some (c.toNat - '0'.toNat)
  else if 'a' ≤ c ∧ c ≤ 'f' then some (c.toNat - 'a'.toNat + 10)
  else if 'A' ≤ c ∧ c ≤ 'F' then some (c.toNat - 'A'.toNat + 10)
  else none

/-- The number that digits of a base stand for. -/
def digitsValue (base : Nat) (digits : List Nat) : Nat :=
  digits.foldl (fun n d => base * n + d) 0

end VersionedTypes.Text
