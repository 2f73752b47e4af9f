import VersionedTypes.Json.Printer
import VersionedTypes.Universe

/-!
# Declarations and results as JSON

Every member is written, also where its value is the default; annotations alone are left out when
there are none. Marks of removal are written, since they are what a delta is about.

* `toJson` for the parts of a declaration and for the declarations;
* `SchemaType.toJson?`: builtins are never written, and neither is a permutation that includes one;
* `Transform.toJson`, `Universe.toJson`: what a declaration list comes to;
* **`Declaration.print`**: the text of a declaration list.
-/

namespace VersionedTypes

open Json

/-- The only value that has no written form. -/
structure UnwritableBuiltin where
  builtin : Builtin
  deriving DecidableEq

/-- The one message for all builtins. -/
def UnwritableBuiltin.message (_ : UnwritableBuiltin) : String :=
  "the enum variant Type::Builtin cannot be serialized"

/-! ## Parts -/

/-- A position as its three numbers. The length is written also if it is zero. -/
def Position.toJson (p : Position) : Json :=
  .object [("line", ofNat p.line.toNat), ("column", ofNat p.column.toNat),
    ("length", ofNat p.length.toNat)]

/-- The members of a table. -/
def OrderedMap.toJson (m : OrderedMap String) : Json :=
  .object (m.entries.map fun e => (e.1, .string e.2))

/-- A position, with the annotations if there are any. -/
def Origin.toJson (o : Origin) : Json :=
  .object (("pos", o.position.toJson) ::
    if o.annotations.entries.isEmpty then [] else [("annotations", o.annotations.toJson)])

/-- A type name with its origin. -/
def TypeRef.toJson (r : TypeRef) : Json :=
  .object [("type_name", .string r.typeName), ("meta", r.origin.toJson)]

/-- A field with the reference to its type. -/
def Field.toJson (f : Field) : Json :=
  .object [("name", .string f.name), ("type", f.type.toJson), ("meta", f.origin.toJson)]

/-- An encoding as its word. -/
def Encoding.toJson (e : Encoding) : Json := .string e.name

/-- The members of a product. -/
def ProductType.members (p : ProductType) : List (String × Json) :=
  [("tag", .string p.tag), ("fields", .array (p.fields.map Field.toJson)),
    ("encoding", p.encoding.toJson), ("meta", p.origin.toJson), ("is_removed", .bool p.removed)]

/-- A product with its mark, which no reader takes back. -/
def ProductType.toJson (p : ProductType) : Json := .object p.members

/-- The members of a sum. -/
def SumType.members (s : SumType) : List (String × Json) :=
  [("tag", .string s.tag), ("variants", .array (s.variants.map ProductType.toJson)),
    ("meta", s.origin.toJson), ("is_removed", .bool s.removed)]

/-- A type is written with its kind in front. -/
def UserType.toJson (t : UserType) : Json :=
  .object (("kind", .string t.kind.name) ::
    match t with
    | .product p => p.members
    | .sum s => s.members)

/-- A declared type, if it is one. -/
def SchemaType.toJson? : SchemaType → Except UnwritableBuiltin Json
  | .builtin b => .error ⟨b⟩
  | .user t => .ok t.toJson

/-! ## Declarations -/

/-- The members of a domain. -/
def Domain.members (d : Domain) : List (String × Json) :=
  [("tag", .string d.tag), ("user_types", .array (d.userTypes.map UserType.toJson)),
    ("meta", d.origin.toJson)]

/-- A domain with the types that it declares. -/
def Domain.toJson (d : Domain) : Json := .object d.members

/-- An edit with the variants that it removes and adds. -/
def SumEdit.toJson (e : SumEdit) : Json :=
  .object [("tag", .string e.tag), ("removed_variants", .array (e.removed.map .string)),
    ("added_variants", .array (e.added.map ProductType.toJson)), ("meta", e.origin.toJson)]

/-- The members of a permutation, unless it includes a builtin. -/
def Permutation.members? (p : Permutation) : Except UnwritableBuiltin (List (String × Json)) := do
  let included ← p.included.mapM SchemaType.toJson?
  pure [("tag", .string p.tag), ("permutes_domain", .string p.base),
    ("excluded_types", .array (p.excluded.names.map .string)), ("included_types", .array included),
    ("permuted_sums", .array (p.sumEdits.map SumEdit.toJson)), ("meta", p.origin.toJson)]

/-- A permutation, if it includes no builtin. -/
def Permutation.toJson? (p : Permutation) : Except UnwritableBuiltin Json := .object <$> p.members?

/-- The members of a transform request. -/
def TransformRequest.members (r : TransformRequest) : List (String × Json) :=
  [("name", .string r.name), ("source_domain", .string r.source),
    ("destination_domain", .string r.destination), ("meta", r.origin.toJson)]

/-- A declaration is written with its kind in front. -/
def Declaration.toJson? : Declaration → Except UnwritableBuiltin Json
  | .domain d => .ok (.object (("kind", .string "domain") :: d.members))
  | .permutation p => do pure (.object (("kind", .string "permutation") :: (← p.members?)))
  | .transform r => .ok (.object (("kind", .string "transform") :: r.members))

/-- The text of a declaration list. -/
def Declaration.print (ds : List Declaration) : Except UnwritableBuiltin String := do
  pure (Json.array (← ds.mapM toJson?)).compact

/-! ## Results -/

/-- A transform with its delta in full. -/
def Transform.toJson (t : Transform) : Json :=
  .object [("name", .string t.name), ("source_domain", .string t.source),
    ("destination_domain", .string t.destination), ("delta", t.delta.toJson),
    ("meta", t.origin.toJson)]

/-- A universe: domains by tag and transforms in order, as they were published. -/
def Universe.toJson (u : Universe) : Json :=
  .object [("domains", .object (u.domains.entries.map fun e => (e.1, e.2.toJson))),
    ("transforms", .array (u.transforms.map Transform.toJson))]

end VersionedTypes
