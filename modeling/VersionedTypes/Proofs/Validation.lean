import VersionedTypes.Validation

/-!
# What validation rules out

* **`repeats_eq_nil_iff`**: a list has no repeats iff its keys are distinct and all are new;
* `Domain.isSome_get?_iff`: the names that stand for a type of a domain;
* `Domain.fieldErrors_eq_nil_iff`, `Domain.variantErrors_eq_nil_iff`: products and sums without
  mistakes;
* **`Domain.errors_eq_nil_iff`**: a domain has no mistakes iff it is well-formed;
* `Domain.nodup_tags_of_errors_eq_nil`, `Domain.not_builtin_of_mem`, `Domain.nodup_variants_of_mem`:
  the tags in a domain without mistakes.
-/

namespace VersionedTypes

/-! ## Repeats -/

/-- The keys of a list are distinct, and none of them was seen before. -/
def Fresh {α : Type} (key : α → String) (seen : List String) (xs : List α) : Prop :=
  (xs.map key).Nodup ∧ ∀ x ∈ xs, key x ∉ seen

section Fresh

variable {α : Type} {key : α → String} {seen : List String} {x : α} {xs : List α}

theorem fresh_nil : Fresh key seen [] := ⟨List.nodup_nil, nofun⟩

theorem fresh_cons : Fresh key seen (x :: xs) ↔ key x ∉ seen ∧ Fresh key (key x :: seen) xs := by
  unfold Fresh
  rw [List.map_cons, List.nodup_cons, List.forall_mem_cons]
  constructor
  · rintro ⟨⟨hx, hn⟩, h, hs⟩
    refine ⟨h, hn, fun y hy hys => ?_⟩
    rcases List.mem_cons.mp hys with e | hys
    · exact hx (e ▸ List.mem_map_of_mem hy)
    · exact hs y hy hys
  · rintro ⟨h, hn, hs⟩
    refine ⟨⟨fun hx => ?_, hn⟩, h, fun y hy hys => hs y hy (List.mem_cons_of_mem _ hys)⟩
    obtain ⟨y, hy, e⟩ := List.mem_map.mp hx
    exact hs y hy (e ▸ List.mem_cons_self)

theorem fresh_empty : Fresh key [] xs ↔ (xs.map key).Nodup := by
  unfold Fresh
  simp

/-- **Nothing is repeated** iff the keys are distinct and none of them was seen before. -/
theorem repeats_eq_nil_iff : repeats key seen xs = [] ↔ Fresh key seen xs := by
  induction xs generalizing seen with
  | nil => exact iff_of_true rfl fresh_nil
  | cons x xs ih =>
    rw [repeats, fresh_cons]
    by_cases h : key x ∈ seen
    · simp [h]
    · simp [h, ih]

end Fresh

theorem repeats_map {α β : Type} {key : α → String} {key' : β → String} {g : α → β}
    (hg : ∀ x, key' (g x) = key x) (seen : List String) (xs : List α) :
    repeats key' seen (xs.map g) = (repeats key seen xs).map g := by
  induction xs generalizing seen with
  | nil => rfl
  | cons x xs ih =>
    rw [List.map_cons, repeats, repeats, hg, ih, ih]
    split <;> rfl

namespace Domain

variable {d : Domain} {name product sum : String} {seen : List String}

/-! ## Products and sums -/

theorem isSome_get?_iff : (d.get? name).isSome = true ↔ d.Names name := by
  unfold get? types Names Builtin.tags
  simp only [List.find?_isSome, List.mem_append, List.mem_map, beq_iff_eq]
  constructor
  · rintro ⟨_, ⟨b, hb, rfl⟩ | ⟨t, ht, rfl⟩, h⟩
    · exact Or.inl ⟨b, hb, h⟩
    · exact Or.inr ⟨t, ht, h⟩
  · rintro (⟨b, hb, h⟩ | ⟨t, ht, h⟩)
    · exact ⟨_, Or.inl ⟨b, hb, rfl⟩, h⟩
    · exact ⟨_, Or.inr ⟨t, ht, rfl⟩, h⟩

theorem referenceErrors_eq_nil_iff {f : Field} :
    d.referenceErrors f = [] ↔ d.Names f.type.typeName := by
  rw [← isSome_get?_iff]
  unfold referenceErrors
  by_cases h : (d.get? f.type.typeName).isSome = true
  · simp [h]
  · simp [h]

theorem fieldErrors_eq_nil_iff {fs : List Field} :
    d.fieldErrors product seen fs = [] ↔
      Fresh Field.name seen fs ∧ ∀ f ∈ fs, d.Names f.type.typeName := by
  induction fs generalizing seen with
  | nil => exact iff_of_true rfl ⟨fresh_nil, nofun⟩
  | cons f fs ih =>
    rw [fieldErrors, List.append_eq_nil_iff, List.append_eq_nil_iff, ih, fresh_cons,
      referenceErrors_eq_nil_iff, List.forall_mem_cons]
    by_cases h : f.name ∈ seen
    · simp [h]
    · simp [h, and_left_comm]

theorem productErrors_eq_nil_iff {p : ProductType} :
    d.productErrors p = [] ↔ d.ProductWellFormed p := by
  rw [productErrors, fieldErrors_eq_nil_iff, fresh_empty]
  rfl

theorem variantErrors_eq_nil_iff {vs : List ProductType} :
    d.variantErrors sum seen vs = [] ↔
      Fresh ProductType.tag seen vs ∧ ∀ v ∈ vs, d.ProductWellFormed v := by
  induction vs generalizing seen with
  | nil => exact iff_of_true rfl ⟨fresh_nil, nofun⟩
  | cons v vs ih =>
    rw [variantErrors, List.append_eq_nil_iff, List.append_eq_nil_iff, ih, fresh_cons,
      productErrors_eq_nil_iff, List.forall_mem_cons]
    by_cases h : v.tag ∈ seen
    · simp [h]
    · simp [h, and_left_comm]

theorem errorsWithin_eq_nil_iff {t : UserType} : d.errorsWithin t = [] ↔ d.TypeWellFormed t := by
  cases t with
  | product p => exact productErrors_eq_nil_iff
  | sum s =>
    rw [errorsWithin, variantErrors_eq_nil_iff, fresh_empty]
    rfl

/-! ## Domains -/

/-- **A domain has no mistakes** iff it is well-formed. -/
theorem errors_eq_nil_iff : d.errors = [] ↔ d.WellFormed := by
  have htypes : d.typeErrors = [] ↔
      (d.userTypes.map UserType.tag).Nodup ∧ ∀ t ∈ d.userTypes, t.tag ∉ Builtin.tags := by
    rw [typeErrors, List.map_eq_nil_iff, repeats_eq_nil_iff]
    rfl
  rw [errors, List.append_eq_nil_iff, htypes, List.flatMap_eq_nil_iff, and_assoc]
  simp only [errorsWithin_eq_nil_iff]
  rfl

theorem nodup_tags_of_errors_eq_nil (h : d.errors = []) : (d.userTypes.map UserType.tag).Nodup :=
  (errors_eq_nil_iff.mp h).1

theorem not_builtin_of_mem {t : UserType} (h : d.errors = []) (ht : t ∈ d.userTypes) :
    t.tag ∉ Builtin.tags :=
  (errors_eq_nil_iff.mp h).2.1 t ht

theorem nodup_variants_of_mem {s : SumType} (h : d.errors = []) (hs : .sum s ∈ d.userTypes) :
    (s.variants.map ProductType.tag).Nodup :=
  ((errors_eq_nil_iff.mp h).2.2 _ hs).1

end Domain

end VersionedTypes
