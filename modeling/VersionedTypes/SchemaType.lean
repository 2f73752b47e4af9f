import VersionedTypes.Builtin
import VersionedTypes.Origin

/-!
# The type algebra

A schema is made of products, which have named and typed fields, and of sums, which are lists of
products. A field names its type; which type that is depends on the domain.

* `TypeRef`, `Field`, `Encoding`, `ProductType`, `SumType`;
* `UserType`, a declared type, and `SchemaType`, a declared or a builtin type;
* **`ProductType.SameShape`**: tag, encoding and fields agree, origins and marks aside;
* `ProductType.hasShapeOf`: the comparison of the fields that decides it;
* `markRemoved`: the mark of what does not survive into another version;
* `mapOrigins`, `bare`: the same value with other or with blank origins;
* `ProductType.Agrees`: equality up to the order of annotations;
* `unmarked`: the same value without marks.
-/

namespace VersionedTypes

/-- A type referred to by its name. -/
structure TypeRef where
  typeName : String
  origin : Origin := Origin.blank
  deriving DecidableEq

/-- A named component of a product. -/
structure Field where
  name : String
  type : TypeRef
  origin : Origin := Origin.blank
  deriving DecidableEq

/-- The fields have the same name, and so have their types. -/
def Field.alike (x y : Field) : Bool := x.name == y.name && x.type.typeName == y.type.typeName

/-- How the components of a product are addressed: by name or by place. -/
inductive Encoding where
  | keyed
  | positional
  deriving DecidableEq, Repr

instance : Inhabited Encoding := ⟨.keyed⟩

/-- The word for an encoding. -/
def Encoding.name : Encoding → String
  | .keyed => "keyed"
  | .positional => "positional"

/-- A tag with an ordered list of typed fields. As a variant its tag is unique in its sum only. -/
structure ProductType where
  tag : String
  fields : List Field := []
  encoding : Encoding := .keyed
  origin : Origin := Origin.blank
  removed : Bool := false
  deriving DecidableEq

/-- A tagged union of products. -/
structure SumType where
  tag : String
  variants : List ProductType := []
  origin : Origin := Origin.blank
  removed : Bool := false
  deriving DecidableEq

/-- A type that a domain declares. -/
inductive UserType where
  | product (p : ProductType)
  | sum (s : SumType)
  deriving DecidableEq

/-- Any type that a tag can stand for in a domain. -/
inductive SchemaType where
  | builtin (b : Builtin)
  | user (t : UserType)
  deriving DecidableEq

/-! ## Products -/

namespace ProductType

/-- The first field of the given name. -/
def field? (p : ProductType) (name : String) : Option Field := p.fields.find? (·.name == name)

/-- The name of each field with the name of its type. -/
def signature (p : ProductType) : List (String × String) :=
  p.fields.map fun f => (f.name, f.type.typeName)

/-- Tag, encoding and signature agree. -/
def SameShape (p q : ProductType) : Prop :=
  p.tag = q.tag ∧ p.encoding = q.encoding ∧ p.signature = q.signature

/-- Compares tags, encodings and numbers of fields, and then the fields side by side. -/
def hasShapeOf (p q : ProductType) : Bool :=
  p.tag == q.tag && p.encoding == q.encoding && p.fields.length == q.fields.length &&
    (p.fields.zip q.fields).all fun (x, y) => x.alike y

/-- Side by side nothing is said of the fields behind the end of the shorter list; the numbers of
fields see to it that there are none. -/
theorem signature_eq_iff {p q : ProductType} : p.signature = q.signature ↔
    p.fields.length = q.fields.length ∧ ∀ f ∈ p.fields.zip q.fields, f.1.alike f.2 = true := by
  unfold signature
  generalize p.fields = xs
  generalize q.fields = ys
  induction xs generalizing ys with
  | nil => cases ys <;> simp
  | cons x xs ih =>
    cases ys with
    | nil => simp
    | cons y ys => simp [ih, Field.alike, and_left_comm]

theorem hasShapeOf_iff {p q : ProductType} : p.hasShapeOf q = true ↔ p.SameShape q := by
  rw [SameShape, signature_eq_iff]
  simp only [hasShapeOf, Bool.and_eq_true, beq_iff_eq, List.all_eq_true, and_assoc]

instance : DecidableRel SameShape := fun _ _ => decidable_of_iff _ hasShapeOf_iff

/-- The product marked as not surviving. -/
def markRemoved (p : ProductType) : ProductType := { p with removed := true }

end ProductType

/-! ## Sums -/

namespace SumType

/-- The first variant of the given tag. -/
def variant? (s : SumType) (tag : String) : Option ProductType := s.variants.find? (·.tag == tag)

/-- The sum marked as not surviving; its variants keep their own marks. -/
def markRemoved (s : SumType) : SumType := { s with removed := true }

end SumType

/-! ## Declared types -/

namespace UserType

/-- The name under which a domain knows the type. -/
def tag : UserType → String
  | .product p => p.tag
  | .sum s => s.tag

/-- Declared types are products or sums. -/
def kind : UserType → Kind
  | .product _ => .product
  | .sum _ => .sum

/-- Where the type is declared, with its notes. -/
def origin : UserType → Origin
  | .product p => p.origin
  | .sum s => s.origin

/-- The type as a whole is marked as not surviving. -/
def isRemoved : UserType → Bool
  | .product p => p.removed
  | .sum s => s.removed

/-- The type marked as not surviving as a whole. -/
def markRemoved : UserType → UserType
  | .product p => .product p.markRemoved
  | .sum s => .sum s.markRemoved

/-- The products that a type is made of: itself, or its variants. -/
def products : UserType → List ProductType
  | .product p => [p]
  | .sum s => s.variants

end UserType

/-! ## All types -/

namespace SchemaType

/-- The name under which a domain knows the type. -/
def tag : SchemaType → String
  | .builtin b => b.tag
  | .user t => t.tag

/-- What the tag of the type names. -/
def kind : SchemaType → Kind
  | .builtin _ => .builtin
  | .user t => t.kind

/-- Builtins are declared nowhere. -/
def origin? : SchemaType → Option Origin
  | .builtin _ => none
  | .user t => some t.origin

/-- The type is marked as not surviving. Builtins always survive. -/
def isRemoved : SchemaType → Bool
  | .builtin _ => false
  | .user t => t.isRemoved

/-- Builtins are never removed. -/
def markRemoved : SchemaType → SchemaType
  | .builtin b => .builtin b
  | .user t => .user t.markRemoved

/-- The declared type, if it is one. -/
def user? : SchemaType → Option UserType
  | .builtin _ => none
  | .user t => some t

/-- The product, if it is one. -/
def product? : SchemaType → Option ProductType
  | .user (.product p) => some p
  | _ => none

/-- The sum, if it is one. -/
def sum? : SchemaType → Option SumType
  | .user (.sum s) => some s
  | _ => none

end SchemaType

/-! ## Origins throughout -/

section Origins

variable (f : Origin → Origin)

/-- The reference with another origin. -/
def TypeRef.mapOrigin (r : TypeRef) : TypeRef := { r with origin := f r.origin }

/-- The field with another origin, and another one of its type. -/
def Field.mapOrigins (x : Field) : Field :=
  { x with type := x.type.mapOrigin f, origin := f x.origin }

/-- The product with other origins, also in its fields. -/
def ProductType.mapOrigins (p : ProductType) : ProductType :=
  { p with fields := p.fields.map (Field.mapOrigins f), origin := f p.origin }

/-- The sum with other origins, also in its variants. -/
def SumType.mapOrigins (s : SumType) : SumType :=
  { s with variants := s.variants.map (ProductType.mapOrigins f), origin := f s.origin }

/-- The declared type with other origins throughout. -/
def UserType.mapOrigins : UserType → UserType
  | .product p => .product (p.mapOrigins f)
  | .sum s => .sum (s.mapOrigins f)

end Origins

/-- The field with blank origins. -/
def Field.bare : Field → Field := Field.mapOrigins fun _ => Origin.blank

/-- The product with blank origins throughout. -/
def ProductType.bare : ProductType → ProductType := ProductType.mapOrigins fun _ => Origin.blank

/-- The sum with blank origins throughout. -/
def SumType.bare : SumType → SumType := SumType.mapOrigins fun _ => Origin.blank

/-- The declared type with blank origins throughout. -/
def UserType.bare : UserType → UserType := UserType.mapOrigins fun _ => Origin.blank

/-- The products are equal but for the order of annotations. -/
def ProductType.Agrees (p q : ProductType) : Prop :=
  p.mapOrigins Origin.sorted = q.mapOrigins Origin.sorted

instance : DecidableRel ProductType.Agrees := fun p q => by
  unfold ProductType.Agrees; infer_instance

/-! ## No marks -/

/-- The product without its mark. -/
def ProductType.unmarked (p : ProductType) : ProductType := { p with removed := false }

/-- The sum without its mark and the marks of its variants. -/
def SumType.unmarked (s : SumType) : SumType :=
  { s with variants := s.variants.map ProductType.unmarked, removed := false }

/-- The declared type without any mark. -/
def UserType.unmarked : UserType → UserType
  | .product p => .product p.unmarked
  | .sum s => .sum s.unmarked

end VersionedTypes
