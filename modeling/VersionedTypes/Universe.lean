import VersionedTypes.Declaration
import VersionedTypes.Delta

/-!
# Universes

A universe is what a declaration list comes to: its domains and the deltas between them.

* `Transform`: a delta with the request that it answers;
* `Universe`, `Universe.domain?`, `Universe.transform?`.
-/

namespace VersionedTypes

/-- The delta of the domain `source` against `destination`. -/
structure Transform where
  name : String
  source : String
  destination : String
  delta : Domain
  origin : Origin
  deriving DecidableEq

/-- The answer to a request, given the two domains. -/
def TransformRequest.answer (r : TransformRequest) (source destination : Domain) : Transform :=
  { name := r.name, source := r.source, destination := r.destination,
    delta := source.delta destination, origin := r.origin }

/-- Domains in the order of their publication, and transforms in the order of the requests. -/
structure Universe where
  domains : DomainMap := OrderedMap.empty
  transforms : List Transform := []
  deriving DecidableEq

namespace Universe

/-- The domain published under `tag`. -/
def domain? (u : Universe) (tag : String) : Option Domain := u.domains.get? tag

/-- The first transform of the given name. -/
def transform? (u : Universe) (name : String) : Option Transform :=
  u.transforms.find? (·.name == name)

end Universe

end VersionedTypes
