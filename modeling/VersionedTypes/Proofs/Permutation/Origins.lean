import VersionedTypes.Proofs.Origins
import VersionedTypes.Proofs.Permutation.Meaning

/-!
# Permutations with other origins

An application takes the origins of what it adds along, and reports a failure at the origin of the
permutation or of the edit. Which types it leaves and which clause fails does not depend on them.

* `SumEdit.mapOrigins`, `Permutation.mapOrigins`, `Clause.mapOrigins`: replacing the origins in a
  permutation;
* `Failure.mapOrigins`: replacing the origin of a failure;
* `SumEdit.applyTo_mapOrigins`, `Permutation.applyClause_mapOrigins`: one edit, and one clause;
* **`Permutation.applyTo_mapOrigins`**: the whole application.
-/

namespace VersionedTypes

variable (f : Origin → Origin)

/-- The edit with another origin of its own, and other ones in what it adds. -/
def SumEdit.mapOrigins (e : SumEdit) : SumEdit :=
  { e with added := e.added.map (ProductType.mapOrigins f), origin := f e.origin }

/-- The permutation with other origins throughout. -/
def Permutation.mapOrigins (p : Permutation) : Permutation :=
  { p with
    included := p.included.map (SchemaType.mapOrigins f)
    sumEdits := p.sumEdits.map (SumEdit.mapOrigins f)
    origin := f p.origin }

/-- The clause with other origins; an exclusion has none. -/
def Clause.mapOrigins : Clause → Clause
  | .exclude tag => .exclude tag
  | .edit e => .edit (e.mapOrigins f)

/-- The same mistake in a permutation with other origins. -/
def PermutationError.mapOrigin (e : PermutationError) : PermutationError :=
  { e with origin := f e.origin }

/-- The same fault in a domain with other origins; a builtin has none. -/
def Fault.mapOrigin : Fault → Fault
  | .unresolvedReference typeName domain origin => .unresolvedReference typeName domain (f origin)
  | .ambiguousTag tag count domain origin => .ambiguousTag tag count domain (f origin)
  | .builtinDeclared builtin domain => .builtinDeclared builtin domain

/-- The same failure of a permutation with other origins. -/
def Failure.mapOrigins : Failure → Failure
  | .illegal e => .illegal (e.mapOrigin f)
  | .fault e => .fault (e.mapOrigin f)

/-! ## One edit -/

theorem removeVariant_mapOrigins (variants : List ProductType) (tag : String) :
    removeVariant (variants.map (ProductType.mapOrigins f)) tag =
      (removeVariant variants tag).map (List.map (ProductType.mapOrigins f)) := by
  unfold removeVariant
  rw [List.any_map, List.eraseP_map]
  change (if variants.any (·.tag == tag) then _ else _) = _
  split <;> rfl

namespace SumEdit

theorem applyTo_mapOrigins (e : SumEdit) (s : SumType) :
    (e.mapOrigins f).applyTo (s.mapOrigins f) = (e.applyTo s).map (SumType.mapOrigins f) := by
  unfold applyTo
  change ((e.removed.foldlM removeVariant (s.variants.map (ProductType.mapOrigins f))).map _) = _
  rw [foldlM_map_of_comm (removeVariant_mapOrigins f)]
  cases e.removed.foldlM removeVariant s.variants with
  | error name => rfl
  | ok kept =>
    have hvariants : kept.map (ProductType.mapOrigins f) ++ (e.mapOrigins f).added =
        (kept ++ e.added).map (ProductType.mapOrigins f) := List.map_append.symm
    exact congrArg (fun vs => Except.ok { s with variants := vs, origin := f s.origin }) hvariants

theorem applyWithin_mapOrigins (domain : String) (e : SumEdit) (types : List UserType) :
    (e.mapOrigins f).applyWithin domain (types.map (UserType.mapOrigins f)) =
      (e.applyWithin domain types).map (List.map (UserType.mapOrigins f)) := by
  induction types with
  | nil => rfl
  | cons t ts ih =>
    rw [List.map_cons]
    by_cases ht : t.tag = e.tag
    · cases t with
      | product q =>
        rw [applyWithin_product_cons ht]
        exact applyWithin_product_cons ht
      | sum s =>
        have ht' : (s.mapOrigins f).tag = (e.mapOrigins f).tag := ht
        rw [applyWithin_sum_cons ht]
        refine (applyWithin_sum_cons ht').trans ?_
        rw [applyTo_mapOrigins]
        cases e.applyTo s <;> rfl
    · have ht' : (t.mapOrigins f).tag ≠ (e.mapOrigins f).tag := t.tag_mapOrigins f ▸ ht
      rw [applyWithin_of_tag_ne ht, applyWithin_of_tag_ne ht', ih]
      cases e.applyWithin domain ts <;> rfl

end SumEdit

/-! ## One clause -/

namespace Permutation

variable (p : Permutation) (base : Domain) (types : List UserType)

theorem excludeType_mapOrigins (tag : String) :
    (p.mapOrigins f).excludeType (base.mapOrigins f) (types.map (UserType.mapOrigins f)) tag =
      ((p.excludeType base types tag).map (List.map (UserType.mapOrigins f))).mapError
        (Failure.mapOrigins f) := by
  have hkey : (fun t : UserType => t.tag == tag) ∘ UserType.mapOrigins f = (·.tag == tag) := by
    funext t
    exact congrArg (· == tag) (t.tag_mapOrigins f)
  unfold excludeType
  rw [List.countP_map, List.eraseP_map, hkey]
  split
  · rfl
  · split <;> rfl

theorem editType_mapOrigins (e : SumEdit) :
    (p.mapOrigins f).editType (types.map (UserType.mapOrigins f)) (e.mapOrigins f) =
      ((p.editType types e).map (List.map (UserType.mapOrigins f))).mapError
        (Failure.mapOrigins f) := by
  by_cases hb : e.tag ∈ Builtin.tags
  · rw [editType_of_builtin hb]
    exact editType_of_builtin hb
  · have hb' : (e.mapOrigins f).tag ∉ Builtin.tags := hb
    rw [editType_of_not_builtin hb, editType_of_not_builtin hb', SumEdit.applyWithin_mapOrigins]
    change Except.mapError _ (Except.map _ (e.applyWithin p.tag types)) = _
    cases e.applyWithin p.tag types <;> rfl

theorem applyClause_mapOrigins (c : Clause) :
    (p.mapOrigins f).applyClause (base.mapOrigins f) (types.map (UserType.mapOrigins f))
        (c.mapOrigins f) =
      ((p.applyClause base types c).map (List.map (UserType.mapOrigins f))).mapError
        (Failure.mapOrigins f) := by
  cases c with
  | exclude tag => exact p.excludeType_mapOrigins f base types tag
  | edit e => exact p.editType_mapOrigins f types e

/-! ## The application -/

theorem clauses_mapOrigins : (p.mapOrigins f).clauses = p.clauses.map (Clause.mapOrigins f) := by
  rw [clauses, clauses, mapOrigins, List.map_append, List.map_map, List.map_map, List.map_map]
  rfl

theorem filterMap_user?_mapOrigins (included : List SchemaType) :
    (included.map (SchemaType.mapOrigins f)).filterMap SchemaType.user? =
      (included.filterMap SchemaType.user?).map (UserType.mapOrigins f) := by
  rw [List.filterMap_map, List.map_filterMap]
  exact List.filterMap_congr fun t _ => by cases t <;> rfl

/-- **An application does not depend on origins**: it gives the same domain with the new ones, or
fails for the same reason at the new origin. -/
theorem applyTo_mapOrigins :
    (p.mapOrigins f).applyTo (base.mapOrigins f) =
      ((p.applyTo base).map (Domain.mapOrigins f)).mapError (Failure.mapOrigins f) := by
  unfold applyTo
  rw [clauses_mapOrigins]
  change Except.map _ (List.foldlM _ (base.userTypes.map (UserType.mapOrigins f)) _) = _
  rw [foldlM_map_mapError_of_comm (p.applyClause_mapOrigins f base)]
  cases p.clauses.foldlM (p.applyClause base) base.userTypes with
  | error e => rfl
  | ok types =>
    have htypes : types.map (UserType.mapOrigins f) ++
        (p.mapOrigins f).included.filterMap SchemaType.user? =
          (types ++ p.included.filterMap SchemaType.user?).map (UserType.mapOrigins f) := by
      rw [List.map_append, ← filterMap_user?_mapOrigins]
      rfl
    exact congrArg (fun ts => Except.ok (Domain.mk p.tag ts (f p.origin))) htypes

end Permutation

end VersionedTypes
