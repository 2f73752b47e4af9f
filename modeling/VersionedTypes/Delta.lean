import VersionedTypes.Domain

/-!
# Deltas between two versions

The delta of a domain against another is the domain itself with a mark on every type and variant
that does not survive unchanged. Products survive as a whole or not at all; a sum survives when the
other domain has a sum of its tag, and its variants are then compared one by one.

* `ProductType.markAgainst`, `SumType.markAgainst`, `UserType.markAgainst`;
* **`Domain.delta`**, `Domain.markedTypes`.
-/

namespace VersionedTypes

/-- Marked unless `target` has the same shape. -/
def ProductType.markAgainst (p target : ProductType) : ProductType :=
  if p.SameShape target then p else p.markRemoved

/-- Every variant compared with the first variant of its tag in `target`. -/
def SumType.markAgainst (s target : SumType) : SumType :=
  { s with
    variants := s.variants.map fun v =>
      match target.variant? v.tag with
      | some w => v.markAgainst w
      | none => v.markRemoved }

/-- Marked unless `target` is a type of the same kind; types of one kind are compared further. -/
def UserType.markAgainst : UserType → Option SchemaType → UserType
  | .product p, some (.user (.product q)) => .product (p.markAgainst q)
  | .sum s, some (.user (.sum t)) => .sum (s.markAgainst t)
  | t, _ => t.markRemoved

namespace Domain

/-- The domain `source` with marks on what does not survive in `destination`. -/
def delta (source destination : Domain) : Domain :=
  { source with
    userTypes := source.userTypes.map fun t => t.markAgainst (destination.get? t.tag) }

/-- The number of types that are marked as a whole. -/
def markedTypes (d : Domain) : Nat := d.userTypes.countP UserType.isRemoved

end Domain

end VersionedTypes
