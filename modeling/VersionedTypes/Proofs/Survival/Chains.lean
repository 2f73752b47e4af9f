import Mathlib.Logic.Relation
import VersionedTypes.Proofs.Delta

/-!
# Survival along a chain of versions

Shapes are compared in every step, and having the same shape is transitive. So what every step of a
chain of versions keeps survives in the delta of its ends, whatever the versions hold: no validity
is asked for, and of several types with one tag the first one counts.

* `Domain.KeepsType`, `Domain.KeepsVariant`: what one step of a chain keeps;
* `Domain.foundAs_of_keepsType`, `Domain.holdsVariant_of_keepsVariant`: what all steps keep;
* **`Domain.survival_composes`**: it has no mark in the delta of the ends.
-/

namespace VersionedTypes

open Relation

namespace Domain

variable {d e : Domain} {t : UserType} {tag : String}

/-- The first type of this tag has no mark in the delta of `d` against `e`. -/
def KeepsType (tag : String) (d e : Domain) : Prop :=
  ∃ t, (d.delta e).get? tag = some t ∧ t.isRemoved = false

/-- The first type of the tag `sum` is a sum without a mark in the delta of `d` against `e`, and its
first variant of this tag has no mark. -/
def KeepsVariant (sum tag : String) (d e : Domain) : Prop :=
  ∃ u v, (d.delta e).get? sum = some (.user (.sum u)) ∧ u.removed = false ∧
    u.variant? tag = some v ∧ v.removed = false

/-- **One step keeps a type**: what finds it in `d` finds it in `e`. -/
theorem KeepsType.foundAs (h : KeepsType tag d e) (ht : t.FoundAs (d.get? tag)) :
    t.FoundAs (e.get? tag) := by
  obtain ⟨t', hget, hr⟩ := h
  obtain ⟨u, hu⟩ := ht.exists_user
  rw [get?_delta, hu] at hget
  cases hget
  rw [hu] at ht
  exact ht.trans (UserType.isRemoved_markAgainst.mp hr).2

/-- The variant is found in the first type of the tag, a sum. -/
def HoldsVariant (v : ProductType) (sum : String) (d : Domain) : Prop :=
  ∃ w, d.get? sum = some (.user (.sum w)) ∧ v.FoundIn w

/-- **One step keeps a variant**: if it is found in `d` it is found in `e`. -/
theorem KeepsVariant.holdsVariant {v : ProductType} {sum : String}
    (h : KeepsVariant sum v.tag d e) (hv : HoldsVariant v sum d) : HoldsVariant v sum e := by
  obtain ⟨w, hw, x, hx, hvx⟩ := hv
  obtain ⟨u, y, hget, hr, hy, hry⟩ := h
  rw [get?_delta, hw, Option.map_some, Option.some.injEq] at hget
  obtain ⟨w₀, w', e, hget', -, rfl⟩ :=
    UserType.exists_of_markAgainst_eq_sum (SchemaType.user.inj hget) hr
  cases e
  rw [SumType.variant?_markAgainst, hx] at hy
  obtain rfl : x.markAmong w' = y := Option.some.inj hy
  obtain ⟨-, z, hz, hxz⟩ := ProductType.removed_markAmong.mp hry
  exact ⟨w', hget', z, hvx.1 ▸ hz, hvx.trans hxz⟩

/-- What every step keeps is found at the end. -/
theorem foundAs_of_keepsType (h : ReflTransGen (KeepsType tag) d e) (ht : t.FoundAs (d.get? tag)) :
    t.FoundAs (e.get? tag) := by
  induction h with
  | refl => exact ht
  | tail _ hstep ih => exact hstep.foundAs ih

theorem holdsVariant_of_keepsVariant {v : ProductType} {sum : String}
    (h : ReflTransGen (KeepsVariant sum v.tag) d e) (hv : HoldsVariant v sum d) :
    HoldsVariant v sum e := by
  induction h with
  | refl => exact hv
  | tail _ hstep ih => exact hstep.holdsVariant ih

/-- **Survival composes along versions.** Let the versions from `d` to `e`, which may be a single
step, keep the first type of some tag. A type of this tag that has no mark in the delta of `s`
against `d` then has none, in the same place, in the delta against `e`. Let them also keep, in a
sum, the first variant of some tag. A variant of this tag without a mark in a sum without a mark
then has none in the same place either. -/
theorem survival_composes (s d e : Domain) :
    (∀ (i : Nat) (t : UserType), (s.delta d).userTypes[i]? = some t → t.isRemoved = false →
      ReflTransGen (KeepsType t.tag) d e →
        ∃ t', (s.delta e).userTypes[i]? = some t' ∧ t'.isRemoved = false) ∧
    (∀ (i : Nat) (u : SumType), (s.delta d).userTypes[i]? = some (.sum u) → u.removed = false →
      ∀ (j : Nat) (v : ProductType), u.variants[j]? = some v → v.removed = false →
        ReflTransGen (KeepsVariant u.tag v.tag) d e →
          ∃ u' v', (s.delta e).userTypes[i]? = some (.sum u') ∧ u'.removed = false ∧
            u'.variants[j]? = some v' ∧ v'.removed = false) := by
  have hplace : ∀ {d' : Domain} {i : Nat}, (s.delta d').userTypes[i]? =
      s.userTypes[i]?.map fun t => t.markAgainst (d'.get? t.tag) := List.getElem?_map
  constructor
  · intro i t ht hr hd
    rw [hplace, Option.map_eq_some_iff] at ht
    obtain ⟨t₀, ht₀, rfl⟩ := ht
    obtain ⟨hr₀, hfound⟩ := UserType.isRemoved_markAgainst.mp hr
    rw [UserType.tag_markAgainst] at hd
    refine ⟨t₀.markAgainst (e.get? t₀.tag), by rw [hplace, ht₀]; rfl, ?_⟩
    exact UserType.isRemoved_markAgainst.mpr ⟨hr₀, foundAs_of_keepsType hd hfound⟩
  · intro i u hu hr j v hv hrv hd
    rw [hplace, Option.map_eq_some_iff] at hu
    obtain ⟨t₀, ht₀, he⟩ := hu
    obtain ⟨u₀, w, rfl, hget, hr₀, rfl⟩ := UserType.exists_of_markAgainst_eq_sum he hr
    rw [SumType.variants_markAgainst, List.getElem?_map, Option.map_eq_some_iff] at hv
    obtain ⟨v₀, hv₀, rfl⟩ := hv
    obtain ⟨hrv₀, hin⟩ := ProductType.removed_markAmong.mp hrv
    rw [ProductType.tag_markAmong] at hd
    obtain ⟨w', hget', hin'⟩ := holdsVariant_of_keepsVariant hd ⟨w, hget, hin⟩
    refine ⟨u₀.markAgainst w', v₀.markAmong w', ?_, hr₀, ?_, ?_⟩
    · rw [hplace, ht₀, Option.map_some]
      exact congrArg (fun target => some ((UserType.sum u₀).markAgainst target)) hget'
    · rw [SumType.variants_markAgainst, List.getElem?_map, hv₀]
      rfl
    · exact ProductType.removed_markAmong.mpr ⟨hrv₀, hin'⟩

/-- A product and a variant come through two upgrades, while what stands beside them leaves. -/
theorem survival_through_upgrades :
    let add : ProductType :=
      { tag := "add", fields := [{ name := "l", type := { typeName := "int" } }] }
    let neg : ProductType := { tag := "neg" }
    let point : UserType := .product { tag := "point" }
    let expr (more : List ProductType) : SumType := { tag := "expr", variants := more ++ [add] }
    let v1 : Domain := { tag := "v1", userTypes := [point, .sum (expr [neg])] }
    let v2 : Domain := { tag := "v2", userTypes := [.sum (expr [{ tag := "lit" }]), point] }
    let v3 : Domain := { tag := "v3", userTypes := [point, .sum (expr []), point] }
    let v4 : Domain := { tag := "v4", userTypes := [.sum (expr [neg]), point] }
    (v1.delta v2).userTypes = [point, .sum (expr [neg.markRemoved])] ∧
      KeepsType "point" v2 v3 ∧ KeepsType "point" v3 v4 ∧
      KeepsVariant "expr" "add" v2 v3 ∧ KeepsVariant "expr" "add" v3 v4 ∧
      (∃ t', (v1.delta v4).userTypes[0]? = some t' ∧ t'.isRemoved = false) ∧
      ∃ u' v', (v1.delta v4).userTypes[1]? = some (.sum u') ∧ u'.removed = false ∧
        u'.variants[1]? = some v' ∧ v'.removed = false := by
  intro add neg point expr v1 v2 v3 v4
  have htypes : (v1.delta v2).userTypes = [point, .sum (expr [neg.markRemoved])] := by decide
  have hp : KeepsType "point" v2 v3 := ⟨_, rfl, rfl⟩
  have hp' : KeepsType "point" v3 v4 := ⟨_, rfl, rfl⟩
  have ha : KeepsVariant "expr" "add" v2 v3 := ⟨_, _, rfl, rfl, rfl, rfl⟩
  have ha' : KeepsVariant "expr" "add" v3 v4 := ⟨_, _, rfl, rfl, rfl, rfl⟩
  obtain ⟨hkept, hvariant⟩ := survival_composes v1 v2 v4
  refine ⟨htypes, hp, hp', ha, ha', hkept 0 point (by rw [htypes]; rfl) rfl ?_,
    hvariant 1 (expr [neg.markRemoved]) (by rw [htypes]; rfl) rfl 1 add rfl rfl ?_⟩
  · exact .tail (.single hp) hp'
  · exact .tail (.single ha) ha'

end Domain

end VersionedTypes
