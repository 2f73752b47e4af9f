import VersionedTypes.Proofs.Delta

/-!
# Other origins

Origins are carried along and never looked at. If every origin of a domain is replaced by another
one, lookups find the same types with their new origins, the same shapes agree, and the same marks
and mistakes come out, at their new origins.

* `SchemaType.mapOrigins`, `ValidationError.mapOrigin`: replacing the origins of what is not
  declared itself;
* `ProductType.sameShape_mapOrigins`, `Domain.get?_mapOrigins`: shapes and lookups;
* **`Domain.delta_mapOrigins`**: the delta of domains with other origins;
* **`Domain.errors_mapOrigins`**: the mistakes in a domain with other origins.
-/

namespace VersionedTypes

variable (f : Origin → Origin)

/-- The type with other origins throughout; builtins have none. -/
def SchemaType.mapOrigins : SchemaType → SchemaType
  | .builtin b => .builtin b
  | .user t => .user (t.mapOrigins f)

/-- The same mistake in a domain with other origins. -/
def ValidationError.mapOrigin (e : ValidationError) : ValidationError :=
  { e with origin := f e.origin }

/-! ## Shapes and lookups -/

theorem UserType.tag_mapOrigins (t : UserType) : (t.mapOrigins f).tag = t.tag := by
  cases t <;> rfl

theorem UserType.origin_mapOrigins (t : UserType) : (t.mapOrigins f).origin = f t.origin := by
  cases t <;> rfl

theorem SchemaType.tag_mapOrigins (t : SchemaType) : (t.mapOrigins f).tag = t.tag := by
  cases t with
  | builtin b => rfl
  | user t => exact t.tag_mapOrigins f

theorem ProductType.signature_mapOrigins (p : ProductType) :
    (p.mapOrigins f).signature = p.signature := by
  rw [signature, mapOrigins, List.map_map]
  rfl

theorem ProductType.sameShape_mapOrigins (p q : ProductType) :
    (p.mapOrigins f).SameShape (q.mapOrigins f) ↔ p.SameShape q := by
  rw [SameShape, signature_mapOrigins, signature_mapOrigins]
  rfl

theorem SumType.variant?_mapOrigins (s : SumType) (tag : String) :
    (s.mapOrigins f).variant? tag = (s.variant? tag).map (ProductType.mapOrigins f) :=
  find?_key_map fun _ => rfl

namespace Domain

theorem types_mapOrigins (d : Domain) :
    (d.mapOrigins f).types = d.types.map (SchemaType.mapOrigins f) := by
  rw [types, types, mapOrigins, List.map_append, List.map_map, List.map_map, List.map_map]
  rfl

theorem get?_mapOrigins (d : Domain) (tag : String) :
    (d.mapOrigins f).get? tag = (d.get? tag).map (SchemaType.mapOrigins f) := by
  rw [get?, types_mapOrigins, find?_key_map (SchemaType.tag_mapOrigins f)]
  rfl

end Domain

/-! ## Marks -/

theorem ProductType.markAgainst_mapOrigins (p q : ProductType) :
    (p.mapOrigins f).markAgainst (q.mapOrigins f) = (p.markAgainst q).mapOrigins f := by
  unfold markAgainst
  simp only [sameShape_mapOrigins]
  split <;> rfl

theorem ProductType.markAmong_mapOrigins (v : ProductType) (target : SumType) :
    (v.mapOrigins f).markAmong (target.mapOrigins f) = (v.markAmong target).mapOrigins f := by
  rw [markAmong_eq, markAmong_eq, SumType.variant?_mapOrigins]
  change ((target.variant? v.tag).map (mapOrigins f)).elim _ _ = _
  cases target.variant? v.tag with
  | none => rfl
  | some w => exact v.markAgainst_mapOrigins f w

theorem SumType.markAgainst_mapOrigins (s target : SumType) :
    (s.mapOrigins f).markAgainst (target.mapOrigins f) = (s.markAgainst target).mapOrigins f := by
  have hvariants : (s.variants.map (ProductType.mapOrigins f)).map
      (·.markAmong (target.mapOrigins f)) =
        (s.variants.map (·.markAmong target)).map (ProductType.mapOrigins f) := by
    rw [List.map_map, List.map_map]
    exact List.map_congr_left fun v _ => v.markAmong_mapOrigins f target
  exact congrArg (fun vs => { s with variants := vs, origin := f s.origin }) hvariants

theorem UserType.markAgainst_mapOrigins (t : UserType) (target : Option SchemaType) :
    (t.mapOrigins f).markAgainst (target.map (SchemaType.mapOrigins f)) =
      (t.markAgainst target).mapOrigins f := by
  rcases t with p | s
  · rcases target with _ | _ | q | w
    · rfl
    · rfl
    · exact congrArg UserType.product (p.markAgainst_mapOrigins f q)
    · rfl
  · rcases target with _ | _ | q | w
    · rfl
    · rfl
    · rfl
    · exact congrArg UserType.sum (s.markAgainst_mapOrigins f w)

/-- **Marks do not depend on origins.** -/
theorem Domain.delta_mapOrigins (a b : Domain) :
    (a.mapOrigins f).delta (b.mapOrigins f) = (a.delta b).mapOrigins f := by
  have htypes : (a.userTypes.map (UserType.mapOrigins f)).map
      (fun t => t.markAgainst ((b.mapOrigins f).get? t.tag)) =
        (a.delta b).userTypes.map (UserType.mapOrigins f) := by
    rw [delta, List.map_map, List.map_map]
    refine List.map_congr_left fun t _ => ?_
    rw [Function.comp_apply, Function.comp_apply, t.tag_mapOrigins, get?_mapOrigins,
      t.markAgainst_mapOrigins]
  exact congrArg (fun ts => { a with userTypes := ts, origin := f a.origin }) htypes

/-! ## Mistakes -/

namespace Domain

variable (d : Domain)

theorem typeErrors_mapOrigins :
    (d.mapOrigins f).typeErrors = d.typeErrors.map (ValidationError.mapOrigin f) := by
  rw [typeErrors, typeErrors, mapOrigins, repeats_map (UserType.tag_mapOrigins f), List.map_map,
    List.map_map]
  refine List.map_congr_left fun t _ => ?_
  rw [Function.comp_apply, t.tag_mapOrigins, t.origin_mapOrigins]
  rfl

theorem referenceErrors_mapOrigins (x : Field) :
    (d.mapOrigins f).referenceErrors (x.mapOrigins f) =
      (d.referenceErrors x).map (ValidationError.mapOrigin f) := by
  unfold referenceErrors
  rw [get?_mapOrigins, Option.isSome_map]
  change (if (d.get? x.type.typeName).isSome then _ else _) = _
  split <;> rfl

theorem fieldErrors_mapOrigins (product : String) (seen : List String) (xs : List Field) :
    (d.mapOrigins f).fieldErrors product seen (xs.map (Field.mapOrigins f)) =
      (d.fieldErrors product seen xs).map (ValidationError.mapOrigin f) := by
  induction xs generalizing seen with
  | nil => rfl
  | cons x xs ih =>
    rw [List.map_cons, fieldErrors, fieldErrors, ih, referenceErrors_mapOrigins, List.map_append,
      List.map_append]
    congr 2
    change (if x.name ∈ seen then _ else _) = _
    split <;> rfl

theorem productErrors_mapOrigins (p : ProductType) :
    (d.mapOrigins f).productErrors (p.mapOrigins f) =
      (d.productErrors p).map (ValidationError.mapOrigin f) :=
  d.fieldErrors_mapOrigins f p.tag [] p.fields

theorem variantErrors_mapOrigins (sum : String) (seen : List String) (vs : List ProductType) :
    (d.mapOrigins f).variantErrors sum seen (vs.map (ProductType.mapOrigins f)) =
      (d.variantErrors sum seen vs).map (ValidationError.mapOrigin f) := by
  induction vs generalizing seen with
  | nil => rfl
  | cons v vs ih =>
    rw [List.map_cons, variantErrors, variantErrors, ih, productErrors_mapOrigins, List.map_append,
      List.map_append]
    congr 2
    change (if v.tag ∈ seen then _ else _) = _
    split <;> rfl

theorem errorsWithin_mapOrigins (t : UserType) :
    (d.mapOrigins f).errorsWithin (t.mapOrigins f) =
      (d.errorsWithin t).map (ValidationError.mapOrigin f) := by
  cases t with
  | product p => exact d.productErrors_mapOrigins f p
  | sum s => exact d.variantErrors_mapOrigins f s.tag [] s.variants

/-- **Mistakes do not depend on origins**: the same ones are found, at the new origins. -/
theorem errors_mapOrigins :
    (d.mapOrigins f).errors = d.errors.map (ValidationError.mapOrigin f) := by
  rw [errors, errors, typeErrors_mapOrigins, List.map_append, List.map_flatMap]
  congr 1
  rw [mapOrigins, List.flatMap_map]
  exact List.flatMap_congr fun t _ => d.errorsWithin_mapOrigins f t

end Domain

end VersionedTypes
