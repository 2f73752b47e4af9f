import VersionedTypes.Permutation

/-!
# Declarations

A universe is declared as a list of plain domains, permutations and requests for transforms.

* `TransformRequest`: a request for the delta between two domains;
* `Declaration`, `Declaration.name`, `Declaration.origin`;
* `Declaration.permutations`, `Declaration.requests`: the declarations of one sort.
-/

namespace VersionedTypes

/-- A request for the delta of `source` against `destination`. -/
structure TransformRequest where
  name : String
  source : String
  destination : String
  origin : Origin := Origin.blank
  deriving DecidableEq

/-- A member of a declaration list. -/
inductive Declaration where
  | domain (d : Domain)
  | permutation (p : Permutation)
  | transform (r : TransformRequest)
  deriving DecidableEq

namespace Declaration

/-- The tag of the declared domain, or the name of the transform. -/
def name : Declaration → String
  | domain d => d.tag
  | permutation p => p.tag
  | transform r => r.name

/-- Where the declaration stands, with its notes. -/
def origin : Declaration → Origin
  | domain d => d.origin
  | permutation p => p.origin
  | transform r => r.origin

/-- The permutation that is declared, if it is one. -/
def permutation? : Declaration → Option Permutation
  | permutation p => some p
  | _ => none

/-- The request that is declared, if it is one. -/
def request? : Declaration → Option TransformRequest
  | transform r => some r
  | _ => none

/-- The permutations of a list, in order. -/
def permutations (ds : List Declaration) : List Permutation := ds.filterMap permutation?

/-- The transform requests of a list, in order. -/
def requests (ds : List Declaration) : List TransformRequest := ds.filterMap request?

end Declaration

end VersionedTypes
