import VersionedTypes.Ordered
import VersionedTypes.Position

/-!
# Origins of declarations

Every declaration carries an origin: its position in the source and free annotations. What is
derived from a declaration keeps its origin unchanged.

* `Origin`, `Origin.blank`, `Origin.ofPosition`;
* `Origin.annotate`, `Origin.annotation?`, `Origin.sorted`, `Origin.location`.
-/

namespace VersionedTypes

/-- Where a declaration stands, and what its author noted about it. -/
structure Origin where
  position : Position := Position.unknown
  annotations : OrderedMap String := OrderedMap.empty
  deriving DecidableEq

namespace Origin

/-- The origin of a value that no source declares. -/
def blank : Origin := {}

instance : Inhabited Origin := ⟨blank⟩

/-- An origin without annotations. -/
def ofPosition (p : Position) : Origin := { position := p }

/-- Note `value` under `key`; an earlier value under that key is replaced in its place. -/
def annotate (o : Origin) (key value : String) : Origin :=
  { o with annotations := o.annotations.insert key value }

/-- The note under `key`. -/
def annotation? (o : Origin) (key : String) : Option String := o.annotations.get? key

/-- The origin with its annotations in the order of their keys, which tells nothing about it. -/
def sorted (o : Origin) : Origin := { o with annotations := o.annotations.sorted }

@[simp] theorem sorted_blank : blank.sorted = blank := by
  simp [sorted, blank, OrderedMap.sorted, OrderedMap.empty]

/-- The location that every report about the declaration begins with. -/
def location (o : Origin) : String := o.position.text

end Origin

end VersionedTypes
