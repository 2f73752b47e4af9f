import VersionedTypes.Json.Binary64

/-!
# JSON values

* `Json.Number`: an integer of at most 64 bits, or a floating point number;
* `Json`: a value; members of an object keep their order, and a name may occur twice.
-/

namespace VersionedTypes

/-- A number as it was read. -/
inductive Json.Number where
  | integer (value : Int)
  | float (value : Binary64)
  deriving DecidableEq

/-- A JSON value. -/
inductive Json where
  | null
  | bool (value : Bool)
  | number (value : Json.Number)
  | string (value : String)
  | array (items : List Json)
  | object (members : List (String × Json))

namespace Json

/-- A natural number as a value. -/
def ofNat (n : Nat) : Json := .number (.integer n)

/-- The digits of a number. -/
def Number.text : Number → String
  | integer i => toString i
  | float x => x.text

end Json

end VersionedTypes
