import Mathlib.Data.List.Forall2
import VersionedTypes.Proofs.Delta

/-!
# What a delta leaves alone

A delta is its source with more marks. It takes no mark away, changes nothing but marks, and in a
sum marks either the sum or its variants. Validation never looks at marks, so it finds in the delta
what it finds in the source.

* `UserType.KeepsMarks`: no mark is taken away;
* `UserType.keepsMarks_markAgainst`, `UserType.markAgainst_of_not_sum`: one type of a delta;
* **`Domain.errors_unmarked`**: the mistakes in a domain without its marks;
* **`Domain.delta_changes_marks_only`**: a delta and its source.
-/

namespace VersionedTypes

/-! ## Marks are kept -/

/-- A product that is marked in the first place is marked in the second. -/
def ProductType.KeepsMark (p q : ProductType) : Prop := p.removed = true → q.removed = true

/-- What is marked in the first type is marked in the second one, the variants of a sum one by
one. -/
inductive UserType.KeepsMarks : UserType → UserType → Prop
  | product {p q : ProductType} (h : p.KeepsMark q) : KeepsMarks (.product p) (.product q)
  | sum {a b : SumType} (h : a.removed = true → b.removed = true)
      (hv : List.Forall₂ ProductType.KeepsMark a.variants b.variants) : KeepsMarks (.sum a) (.sum b)

namespace ProductType

theorem keepsMark_markAgainst (p target : ProductType) : p.KeepsMark (p.markAgainst target) := by
  intro hp
  unfold markAgainst
  split
  · exact hp
  · rfl

theorem keepsMark_markAmong (v : ProductType) (target : SumType) :
    v.KeepsMark (v.markAmong target) := by
  unfold markAmong
  split
  · exact v.keepsMark_markAgainst _
  · exact fun _ => rfl

end ProductType

namespace UserType

variable {t : UserType} {a w : SumType} {target : Option SchemaType}

theorem keepsMarks_markRemoved (t : UserType) : t.KeepsMarks t.markRemoved := by
  cases t with
  | product p => exact .product fun _ => rfl
  | sum s => exact .sum (fun _ => rfl) (List.forall₂_same.mpr fun v _ hv => hv)

/-- **No mark is taken away**, whatever a type is compared with. -/
theorem keepsMarks_markAgainst (t : UserType) (target : Option SchemaType) :
    t.KeepsMarks (t.markAgainst target) := by
  unfold markAgainst
  split
  · next p q => exact .product (p.keepsMark_markAgainst q)
  · next s w =>
    refine .sum id (List.forall₂_map_right_iff.mpr (List.forall₂_same.mpr fun v _ => ?_))
    exact v.keepsMark_markAmong w
  · exact t.keepsMarks_markRemoved

theorem markAgainst_of_not_sum (h : ∀ w, target ≠ some (.user (.sum w))) :
    (UserType.sum a).markAgainst target = .sum a.markRemoved := by
  rcases target with _ | _ | q | w
  · rfl
  · rfl
  · rfl
  · exact absurd rfl (h w)

end UserType

/-! ## Validation looks at no mark -/

theorem UserType.tag_unmarked (t : UserType) : t.unmarked.tag = t.tag := by cases t <;> rfl

theorem UserType.origin_unmarked (t : UserType) : t.unmarked.origin = t.origin := by
  cases t <;> rfl

namespace Domain

variable (d : Domain)

theorem typeErrors_unmarked : d.unmarked.typeErrors = d.typeErrors := by
  rw [typeErrors, typeErrors, unmarked, repeats_map UserType.tag_unmarked, List.map_map]
  refine List.map_congr_left fun t _ => ?_
  rw [Function.comp_apply, t.tag_unmarked, t.origin_unmarked]

theorem names_unmarked {name : String} : d.unmarked.Names name ↔ d.Names name := by
  have htags : d.unmarked.userTypes.map UserType.tag = d.userTypes.map UserType.tag := by
    rw [unmarked, List.map_map]
    exact List.map_congr_left fun t _ => t.tag_unmarked
  unfold Names
  rw [htags]

theorem referenceErrors_unmarked (f : Field) :
    d.unmarked.referenceErrors f = d.referenceErrors f := by
  have hsome : (d.unmarked.get? f.type.typeName).isSome = (d.get? f.type.typeName).isSome := by
    rw [Bool.eq_iff_iff, isSome_get?_iff, isSome_get?_iff, names_unmarked]
  unfold referenceErrors
  rw [hsome]
  rfl

theorem fieldErrors_unmarked (product : String) (seen : List String) (fs : List Field) :
    d.unmarked.fieldErrors product seen fs = d.fieldErrors product seen fs := by
  induction fs generalizing seen with
  | nil => rfl
  | cons f fs ih => rw [fieldErrors, fieldErrors, ih, referenceErrors_unmarked]

theorem variantErrors_unmarked (sum : String) (seen : List String) (vs : List ProductType) :
    d.unmarked.variantErrors sum seen (vs.map ProductType.unmarked) =
      d.variantErrors sum seen vs := by
  induction vs generalizing seen with
  | nil => rfl
  | cons v vs ih =>
    have hv : d.unmarked.productErrors v.unmarked = d.productErrors v :=
      d.fieldErrors_unmarked v.tag [] v.fields
    rw [List.map_cons, variantErrors, variantErrors, ih, hv]
    rfl

theorem errorsWithin_unmarked (t : UserType) :
    d.unmarked.errorsWithin t.unmarked = d.errorsWithin t := by
  cases t with
  | product p => exact d.fieldErrors_unmarked p.tag [] p.fields
  | sum s => exact d.variantErrors_unmarked s.tag [] s.variants

/-- **Mistakes do not depend on marks.** -/
theorem errors_unmarked : d.unmarked.errors = d.errors := by
  rw [errors, errors, typeErrors_unmarked]
  congr 1
  change (d.userTypes.map UserType.unmarked).flatMap _ = _
  rw [List.flatMap_map]
  exact List.flatMap_congr fun t _ => d.errorsWithin_unmarked t

/-! ## A delta and its source -/

/-- **A delta changes nothing but marks.** It has the tag and the origin of its source, and without
marks the two are equal. No mark of the source is taken away. Where the destination
has a sum under the tag of a sum, the mark of that sum stays as it is; where it has none, the
variants do. Validation finds the same mistakes in the delta as in the source. -/
theorem delta_changes_marks_only (s d : Domain) :
    (s.delta d).tag = s.tag ∧ (s.delta d).origin = s.origin ∧
    (s.delta d).unmarked = s.unmarked ∧
    List.Forall₂ UserType.KeepsMarks s.userTypes (s.delta d).userTypes ∧
    List.Forall₂ (fun t u => ∀ a, t = .sum a → ∃ b, u = .sum b ∧
      ((∃ w, d.get? a.tag = some (.user (.sum w))) → b.removed = a.removed) ∧
      ((∀ w, d.get? a.tag ≠ some (.user (.sum w))) → b.variants = a.variants))
      s.userTypes (s.delta d).userTypes ∧
    (s.delta d).errors = s.errors := by
  have hunmarked := unmarked_delta s d
  refine ⟨rfl, rfl, hunmarked, ?_, ?_, ?_⟩
  · refine List.forall₂_map_right_iff.mpr (List.forall₂_same.mpr fun t _ => ?_)
    exact t.keepsMarks_markAgainst _
  · refine List.forall₂_map_right_iff.mpr (List.forall₂_same.mpr ?_)
    rintro _ - a rfl
    by_cases h : ∃ w, d.get? a.tag = some (.user (.sum w))
    · obtain ⟨w, hw⟩ := h
      have hmark : (UserType.sum a).markAgainst (d.get? a.tag) = .sum (a.markAgainst w) := by
        rw [hw]; rfl
      exact ⟨_, hmark, fun _ => rfl, fun hno => absurd hw (hno w)⟩
    · have hno : ∀ w, d.get? a.tag ≠ some (.user (.sum w)) := fun w hw => h ⟨w, hw⟩
      exact ⟨_, UserType.markAgainst_of_not_sum hno, fun hsum => absurd hsum h, fun _ => rfl⟩
  · rw [← errors_unmarked, hunmarked, errors_unmarked]

end Domain

end VersionedTypes
