import VersionedTypes.Fault
import VersionedTypes.SchemaType

/-!
# Type domains

A domain is one version of a schema. It stores the types that it declares, in order; its full list
of types begins with the builtins.

* `Domain`, `Domain.ofTypes`, which refuses builtins;
* `Domain.types`, `Domain.get?`, `Domain.resolve`;
* `Domain.mapOrigins`, `Domain.bare`, `Domain.unmarked`;
* `Domain.Agrees`: equality up to the order of annotations.
-/

namespace VersionedTypes

/-- A named list of declared types. -/
structure Domain where
  tag : String
  userTypes : List UserType := []
  origin : Origin := Origin.blank
  deriving DecidableEq

/-- The domains of a universe by tag. -/
abbrev DomainMap := OrderedMap Domain

namespace Domain

/-- Builtins first, then the declared types in order. -/
def types (d : Domain) : List SchemaType :=
  Builtin.all.map SchemaType.builtin ++ d.userTypes.map SchemaType.user

/-- The first type of the given tag. -/
def get? (d : Domain) (tag : String) : Option SchemaType := d.types.find? (·.tag == tag)

/-- The first declared type of the given tag. -/
def user? (d : Domain) (tag : String) : Option UserType := d.userTypes.find? (·.tag == tag)

/-- The type that a reference stands for. A reference that stands for none is a fault: valid
domains hold no such reference. -/
def resolve (d : Domain) (r : TypeRef) : Except Fault SchemaType :=
  match d.get? r.typeName with
  | some t => .ok t
  | none => .error (.unresolvedReference r.typeName d.tag r.origin)

/-- The domain that declares `types`. Builtins belong to every domain, so none may be declared. -/
def ofTypes (tag : String) (types : List SchemaType) (origin : Origin) : Except Fault Domain :=
  match types.findSome? fun | .builtin b => some b | .user _ => none with
  | some b => .error (.builtinDeclared b tag)
  | none => .ok { tag, userTypes := types.filterMap SchemaType.user?, origin }

/-- The domain with other origins throughout. -/
def mapOrigins (f : Origin → Origin) (d : Domain) : Domain :=
  { d with userTypes := d.userTypes.map (UserType.mapOrigins f), origin := f d.origin }

/-- The domain with blank origins throughout. -/
def bare : Domain → Domain := mapOrigins fun _ => Origin.blank

/-- The domains are equal but for the order of annotations. -/
def Agrees (d e : Domain) : Prop := d.mapOrigins Origin.sorted = e.mapOrigins Origin.sorted

instance : DecidableRel Agrees := fun d e => by unfold Agrees; infer_instance

/-- The domain without marks. -/
def unmarked (d : Domain) : Domain := { d with userTypes := d.userTypes.map UserType.unmarked }

end Domain

end VersionedTypes
