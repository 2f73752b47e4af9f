/-!
# Builtin types

Three types belong to every domain. They have no shape and no place of declaration, and nothing
removes them.

* `Builtin`, `Builtin.all`, `Builtin.tag`, `Builtin.ofTag?`;
* `Kind`: what a tag can name, a builtin, a product or a sum.
-/

namespace VersionedTypes

/-- A type that every domain has. -/
inductive Builtin where
  | int
  | symbol
  | opaqueValue
  deriving DecidableEq, Repr

namespace Builtin

/-- The builtins, in the order in which they head a domain's types. -/
def all : List Builtin := [.int, .symbol, .opaqueValue]

/-- The tag under which a builtin is known. -/
def tag : Builtin → String
  | .int => "int"
  | .symbol => "symbol"
  | .opaqueValue => "opaque_value"

/-- The builtin with the given tag. -/
def ofTag? (tag : String) : Option Builtin := all.find? (·.tag == tag)

@[simp] theorem ofTag?_tag (b : Builtin) : ofTag? b.tag = some b := by cases b <;> decide

end Builtin

/-- What a tag can name. -/
inductive Kind where
  | builtin
  | product
  | sum
  deriving DecidableEq, Repr

namespace Kind

/-- The word for a kind, in declarations and in reports. -/
def name : Kind → String
  | .builtin => "builtin"
  | .product => "product"
  | .sum => "sum"

/-- The kind is that of a builtin. -/
def isBuiltin (k : Kind) : Bool := k == .builtin

/-- The kind is that of a product. -/
def isProduct (k : Kind) : Bool := k == .product

/-- The kind is that of a sum. -/
def isSum (k : Kind) : Bool := k == .sum

end Kind

end VersionedTypes
