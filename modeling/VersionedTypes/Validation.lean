import VersionedTypes.Diagnostic
import VersionedTypes.Domain

/-!
# Validation of a domain

A valid domain declares no tag twice and none of a builtin, its sums have no variant twice, its
products no field twice, and every field has a type of the domain.

* `repeats`: the members of a list whose key was seen before;
* **`Domain.errors`**: all mistakes in a domain, duplicate types first;
* **`Domain.WellFormed`**: what a valid domain is, without the list of mistakes.
-/

namespace VersionedTypes

/-- The members of `xs` whose key occurs among `seen` or in front of them. -/
def repeats {α : Type} (key : α → String) (seen : List String) : List α → List α
  | [] => []
  | x :: xs =>
    if key x ∈ seen then x :: repeats key seen xs else repeats key (key x :: seen) xs

/-- The tags of the builtins. -/
def Builtin.tags : List String := Builtin.all.map Builtin.tag

namespace Domain

variable (d : Domain)

/-- Types whose tag a builtin or an earlier type has. -/
def typeErrors : List ValidationError :=
  (repeats UserType.tag Builtin.tags d.userTypes).map fun t =>
    ⟨.duplicateType d.tag t.tag, t.origin⟩

/-- A field whose type the domain does not have. -/
def referenceErrors (f : Field) : List ValidationError :=
  if (d.get? f.type.typeName).isSome then []
  else [⟨.undefinedReference d.tag f.type.typeName, f.type.origin⟩]

/-- The mistakes in the fields of a product: for each field first its name, then its type. -/
def fieldErrors (product : String) (seen : List String) : List Field → List ValidationError
  | [] => []
  | f :: fs =>
    (if f.name ∈ seen then [⟨.duplicateField product f.name, f.origin⟩] else []) ++
      d.referenceErrors f ++ fieldErrors product (f.name :: seen) fs

/-- The mistakes in a product. -/
def productErrors (p : ProductType) : List ValidationError := d.fieldErrors p.tag [] p.fields

/-- The mistakes in the variants of a sum: for each variant first its tag, then its fields. -/
def variantErrors (sum : String) (seen : List String) : List ProductType → List ValidationError
  | [] => []
  | v :: vs =>
    (if v.tag ∈ seen then [⟨.duplicateVariant sum v.tag, v.origin⟩] else []) ++
      d.productErrors v ++ variantErrors sum (v.tag :: seen) vs

/-- The mistakes within one type. -/
def errorsWithin : UserType → List ValidationError
  | .product p => d.productErrors p
  | .sum s => d.variantErrors s.tag [] s.variants

/-- All mistakes in the domain: duplicate types first, then type by type in order. -/
def errors : List ValidationError := d.typeErrors ++ d.userTypes.flatMap d.errorsWithin

/-! ## What a valid domain is -/

/-- `name` is the tag of a builtin or of a declared type. -/
def Names (name : String) : Prop := name ∈ Builtin.tags ∨ name ∈ d.userTypes.map UserType.tag

/-- The fields of a product have distinct names, and types of the domain. -/
def ProductWellFormed (p : ProductType) : Prop :=
  (p.fields.map Field.name).Nodup ∧ ∀ f ∈ p.fields, d.Names f.type.typeName

/-- A type is well-formed when its products are and the variants of a sum have distinct tags. -/
def TypeWellFormed : UserType → Prop
  | .product p => d.ProductWellFormed p
  | .sum s => (s.variants.map ProductType.tag).Nodup ∧ ∀ v ∈ s.variants, d.ProductWellFormed v

/-- Declared tags are distinct and not those of builtins, and every type is well-formed. -/
def WellFormed : Prop :=
  (d.userTypes.map UserType.tag).Nodup ∧ (∀ t ∈ d.userTypes, t.tag ∉ Builtin.tags) ∧
    ∀ t ∈ d.userTypes, d.TypeWellFormed t

end Domain

end VersionedTypes
