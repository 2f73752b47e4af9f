import VersionedTypes.Declaration
import VersionedTypes.Json.Format

/-!
# The formats of declarations

A front end hands declarations over as a JSON list. A member that may be left out has a default: no
fields, types or edits, the keyed encoding, an unknown position. Marks of removal are not read.

* formats of the parts: `Position.format`, `Origin.format`, `TypeRef.format`, `Field.format`,
  `Encoding.format`, `ProductType.format`, `SumType.format`, `UserType.format`;
* formats of the declarations: `Domain.format`, `SumEdit.format`, `Permutation.format`,
  `TransformRequest.format`, `Declaration.format`;
* **`Declaration.parse`**: the declarations of a text.
-/

namespace VersionedTypes

open Format

/-! ## Positions and origins -/

/-- The members of a position that are known. -/
structure Position.Draft where
  line : Option UInt32 := none
  column : Option UInt32 := none
  length : Option UInt32 := none

/-- Positions: line and column, and a length that is zero if it is missing. -/
def Position.format : Format Position :=
  record "SourcePos"
    [columnOf "line" true word32 (·.line) fun (s : Position.Draft) x => { s with line := some x },
      columnOf "column" true word32 (·.column) fun s x => { s with column := some x },
      columnOf "length" false word32 (·.length) fun s x => { s with length := some x }]
    {} fun s => do
      let line ← require "line" s.line
      let column ← require "column" s.column
      pure { line, column, length := s.length.getD 0 }

/-- The members of an origin that are known. -/
structure Origin.Draft where
  position : Option Position := none
  annotations : Option (OrderedMap String) := none

/-- Origins: both members may be missing. -/
def Origin.format : Format Origin :=
  record "Meta"
    [columnOf "pos" false Position.format (·.position)
        fun (s : Origin.Draft) x => { s with position := some x },
      columnOf "annotations" false table (·.annotations)
        fun s x => { s with annotations := some x }]
    {} fun s =>
      .ok { position := s.position.getD Position.unknown,
            annotations := s.annotations.getD OrderedMap.empty }

/-! ## Types -/

/-- The members of a type reference that are known. -/
structure TypeRef.Draft where
  typeName : Option String := none
  origin : Option Origin := none

/-- References: a name, with an origin that may be missing. -/
def TypeRef.format : Format TypeRef :=
  record "TypeRef"
    [columnOf "type_name" true string (·.typeName)
        fun (s : TypeRef.Draft) x => { s with typeName := some x },
      columnOf "meta" false Origin.format (·.origin) fun s x => { s with origin := some x }]
    {} fun s => do
      let typeName ← require "type_name" s.typeName
      pure { typeName, origin := s.origin.getD Origin.blank }

/-- The members of a field that are known. -/
structure Field.Draft where
  name : Option String := none
  type : Option TypeRef := none
  origin : Option Origin := none

/-- Fields: a name and a type, with an origin that may be missing. -/
def Field.format : Format Field :=
  record "Field"
    [columnOf "name" true string (·.name) fun (s : Field.Draft) x => { s with name := some x },
      columnOf "type" true TypeRef.format (·.type) fun s x => { s with type := some x },
      columnOf "meta" false Origin.format (·.origin) fun s x => { s with origin := some x }]
    {} fun s => do
      let name ← require "name" s.name
      let type ← require "type" s.type
      pure { name, type, origin := s.origin.getD Origin.blank }

/-- Encodings by their words. -/
def Encoding.format : Format Encoding :=
  choice [(Encoding.keyed.name, .keyed), (Encoding.positional.name, .positional)]

/-- The members of a product that are known. -/
structure ProductType.Draft where
  tag : Option String := none
  fields : Option (List Field) := none
  encoding : Option Encoding := none
  origin : Option Origin := none

/-- Products: a tag, and all else may be missing; without an encoding they are keyed. -/
def ProductType.format : Format ProductType :=
  record "ProductType"
    [columnOf "tag" true string (·.tag) fun (s : ProductType.Draft) x => { s with tag := some x },
      columnOf "fields" false (list Field.format) (·.fields) fun s x => { s with fields := some x },
      columnOf "encoding" false Encoding.format (·.encoding)
        fun s x => { s with encoding := some x },
      columnOf "meta" false Origin.format (·.origin) fun s x => { s with origin := some x }]
    {} fun s => do
      let tag ← require "tag" s.tag
      pure { tag, fields := s.fields.getD [], encoding := s.encoding.getD .keyed,
             origin := s.origin.getD Origin.blank }

/-- The members of a sum that are known. -/
structure SumType.Draft where
  tag : Option String := none
  variants : Option (List ProductType) := none
  origin : Option Origin := none

/-- Sums: a tag, and all else may be missing. -/
def SumType.format : Format SumType :=
  record "SumType"
    [columnOf "tag" true string (·.tag) fun (s : SumType.Draft) x => { s with tag := some x },
      columnOf "variants" false (list ProductType.format) (·.variants)
        fun s x => { s with variants := some x },
      columnOf "meta" false Origin.format (·.origin) fun s x => { s with origin := some x }]
    {} fun s => do
      let tag ← require "tag" s.tag
      pure { tag, variants := s.variants.getD [], origin := s.origin.getD Origin.blank }

/-- A declared type. Builtins belong to every domain and are never written. -/
def UserType.format : Format UserType :=
  tagged "Type"
    [(Kind.product.name, fun v => (ProductType.format.ofJson v).map .product),
      (Kind.sum.name, fun v => (SumType.format.ofJson v).map .sum)]

/-! ## Declarations -/

/-- The members of a domain that are known. -/
structure Domain.Draft where
  tag : Option String := none
  userTypes : Option (List UserType) := none
  origin : Option Origin := none

/-- Domains: a tag, and all else may be missing. -/
def Domain.format : Format Domain :=
  record "TypeDomain"
    [columnOf "tag" true string (·.tag) fun (s : Domain.Draft) x => { s with tag := some x },
      columnOf "user_types" false (list UserType.format) (·.userTypes)
        fun s x => { s with userTypes := some x },
      columnOf "meta" false Origin.format (·.origin) fun s x => { s with origin := some x }]
    {} fun s => do
      let tag ← require "tag" s.tag
      pure { tag, userTypes := s.userTypes.getD [], origin := s.origin.getD Origin.blank }

/-- The members of a sum edit that are known. -/
structure SumEdit.Draft where
  tag : Option String := none
  removed : Option (List String) := none
  added : Option (List ProductType) := none
  origin : Option Origin := none

/-- Edits: a tag, and all else may be missing. -/
def SumEdit.format : Format SumEdit :=
  record "PermutedSum"
    [columnOf "tag" true string (·.tag) fun (s : SumEdit.Draft) x => { s with tag := some x },
      columnOf "removed_variants" false (list string) (·.removed)
        fun s x => { s with removed := some x },
      columnOf "added_variants" false (list ProductType.format) (·.added)
        fun s x => { s with added := some x },
      columnOf "meta" false Origin.format (·.origin) fun s x => { s with origin := some x }]
    {} fun s => do
      let tag ← require "tag" s.tag
      pure { tag, removed := s.removed.getD [], added := s.added.getD [],
             origin := s.origin.getD Origin.blank }

/-- The members of a permutation that are known. -/
structure Permutation.Draft where
  tag : Option String := none
  base : Option String := none
  excluded : Option NameSet := none
  included : Option (List UserType) := none
  sumEdits : Option (List SumEdit) := none
  origin : Option Origin := none

/-- Permutations: a tag and a base, and all else may be missing. Repeats in a set collapse. -/
def Permutation.format : Format Permutation :=
  record "PermutedDomain"
    [columnOf "tag" true string (·.tag) fun (s : Permutation.Draft) x => { s with tag := some x },
      columnOf "permutes_domain" true string (·.base) fun s x => { s with base := some x },
      columnOf "excluded_types" false names (·.excluded) fun s x => { s with excluded := some x },
      columnOf "included_types" false (list UserType.format) (·.included)
        fun s x => { s with included := some x },
      columnOf "permuted_sums" false (list SumEdit.format) (·.sumEdits)
        fun s x => { s with sumEdits := some x },
      columnOf "meta" false Origin.format (·.origin) fun s x => { s with origin := some x }]
    {} fun s => do
      let tag ← require "tag" s.tag
      let base ← require "permutes_domain" s.base
      pure { tag, base, excluded := s.excluded.getD NameSet.empty,
             included := (s.included.getD []).map .user, sumEdits := s.sumEdits.getD [],
             origin := s.origin.getD Origin.blank }

/-- The members of a transform request that are known. -/
structure TransformRequest.Draft where
  name : Option String := none
  source : Option String := none
  destination : Option String := none
  origin : Option Origin := none

/-- Requests: a name and two tags, with an origin that may be missing. -/
def TransformRequest.format : Format TransformRequest :=
  record "TransformRequest"
    [columnOf "name" true string (·.name)
        fun (s : TransformRequest.Draft) x => { s with name := some x },
      columnOf "source_domain" true string (·.source) fun s x => { s with source := some x },
      columnOf "destination_domain" true string (·.destination)
        fun s x => { s with destination := some x },
      columnOf "meta" false Origin.format (·.origin) fun s x => { s with origin := some x }]
    {} fun s => do
      let name ← require "name" s.name
      let source ← require "source_domain" s.source
      let destination ← require "destination_domain" s.destination
      pure { name, source, destination, origin := s.origin.getD Origin.blank }

/-- Declarations by their kind. -/
def Declaration.format : Format Declaration :=
  tagged "Declaration"
    [("domain", fun v => (Domain.format.ofJson v).map .domain),
      ("permutation", fun v => (Permutation.format.ofJson v).map .permutation),
      ("transform", fun v => (TransformRequest.format.ofJson v).map .transform)]

/-- The declarations of a text. -/
def Declaration.parse (text : String) : Except Json.ReadError (List Declaration) :=
  (list Declaration.format).parse text

/-- The message about a text that holds no declarations. -/
def Declaration.parseErrorMessage (e : Json.ReadError) : String :=
  s!"invalid declarations: {e.message}"

end VersionedTypes
