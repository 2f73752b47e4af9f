import VersionedTypes.Proofs.Delta

/-!
# What survives in a delta

A product survives where the other domain has a product of its shape, a sum where it has a sum of
its tag, and a variant where the other sum has a variant of its shape. Between valid domains it does
not matter which of the two is looked at.

* `Part`, `Domain.survivors`: what has no mark in a domain;
* `Domain.isRemoved_of_mem_delta`, `Domain.removed_of_mem_delta`: the marks in a delta;
* `Domain.Shared`, **`Domain.mem_survivors_delta`**: what survives is what both domains have;
* `Domain.delta_self`: a valid domain survives in its own delta;
* **`Domain.survival_exact_and_symmetric`**: the marks between two valid domains.
-/

namespace VersionedTypes

/-! ## What survives -/

/-- A type of a domain, or a variant of one of its sums, by their tags. -/
inductive Part where
  | type (tag : String)
  | variant (sum tag : String)
  deriving DecidableEq

/-- What has no mark: nothing of a type that is marked as a whole. -/
def UserType.survivors : UserType → List Part
  | .product p => if p.removed then [] else [.type p.tag]
  | .sum s =>
    if s.removed then []
    else .type s.tag ::
      (s.variants.filter fun v => !v.removed).map fun v => .variant s.tag v.tag

theorem UserType.mem_survivors {t : UserType} {x : Part} :
    x ∈ t.survivors ↔ t.isRemoved = false ∧ (x = .type t.tag ∨
      ∃ s, t = .sum s ∧ ∃ v ∈ s.variants, v.removed = false ∧ .variant s.tag v.tag = x) := by
  cases t with
  | product p =>
    cases hp : p.removed <;> simp [survivors, isRemoved, tag, hp]
  | sum s =>
    cases hs : s.removed <;> simp [survivors, isRemoved, tag, hs, and_assoc]

namespace Domain

variable {s d : Domain} {t : UserType} {p : ProductType} {u : SumType} {x : Part} {tag : String}

/-- The types of a domain, and the variants of its sums, that have no mark. -/
def survivors (d : Domain) : List Part := d.userTypes.flatMap UserType.survivors

/-- Both domains have the part, and in the same form. -/
inductive Shared (s d : Domain) : Part → Prop
  | product {p q : ProductType} (hp : .product p ∈ s.userTypes) (hq : .product q ∈ d.userTypes)
      (h : p.SameShape q) : Shared s d (.type p.tag)
  | sum {a b : SumType} (ha : .sum a ∈ s.userTypes) (hb : .sum b ∈ d.userTypes)
      (h : a.tag = b.tag) : Shared s d (.type a.tag)
  | variant {a b : SumType} {v w : ProductType} (ha : .sum a ∈ s.userTypes)
      (hb : .sum b ∈ d.userTypes) (h : a.tag = b.tag) (hv : v ∈ a.variants) (hw : w ∈ b.variants)
      (hvw : v.SameShape w) : Shared s d (.variant a.tag v.tag)

theorem Shared.symm (h : Shared s d x) : Shared d s x := by
  cases h with
  | product hp hq h => exact h.1 ▸ .product hq hp h.symm
  | sum ha hb h => exact h ▸ .sum hb ha h.symm
  | variant ha hb h hv hw hvw => exact hvw.1 ▸ h ▸ .variant hb ha h.symm hw hv hvw.symm

theorem mem_delta : t ∈ (s.delta d).userTypes ↔
    ∃ t₀ ∈ s.userTypes, t₀.markAgainst (d.get? t₀.tag) = t := List.mem_map

theorem unmarked_iff : s.unmarked = s ↔ ∀ t ∈ s.userTypes, t.unmarked = t := by
  conv_rhs => rw [← List.map_inj_left, List.map_id']
  cases s
  simp [unmarked]

theorem unmarked_mem_of_mem_delta (hm : s.unmarked = s) (ht : t ∈ (s.delta d).userTypes) :
    t.unmarked ∈ s.userTypes := by
  have htypes : (s.delta d).userTypes.map UserType.unmarked = s.userTypes :=
    congrArg userTypes ((unmarked_delta s d).trans hm)
  exact htypes ▸ List.mem_map_of_mem ht

/-- A type of the delta has no mark if and only if it is found. -/
theorem isRemoved_of_mem_delta (hm : s.unmarked = s) (ht : t ∈ (s.delta d).userTypes) :
    t.isRemoved = false ↔ t.FoundAs (d.get? t.tag) := by
  obtain ⟨t₀, ht₀, rfl⟩ := mem_delta.mp ht
  have hr : t₀.isRemoved = false := UserType.isRemoved_of_unmarked (unmarked_iff.mp hm _ ht₀)
  rw [UserType.isRemoved_markAgainst, UserType.tag_markAgainst, ← UserType.foundAs_unmarked,
    ← (t₀.markAgainst _).foundAs_unmarked, UserType.unmarked_markAgainst]
  exact and_iff_right hr

/-- A variant of a sum without a mark has none if and only if it is found in the other sum. -/
theorem removed_of_mem_delta {v : ProductType} (hm : s.unmarked = s)
    (hu : .sum u ∈ (s.delta d).userTypes) (hr : u.removed = false) (hv : v ∈ u.variants) :
    v.removed = false ↔ ∃ w, d.get? u.tag = some (.user (.sum w)) ∧ v.FoundIn w := by
  obtain ⟨t₀, ht₀, e⟩ := mem_delta.mp hu
  obtain ⟨u₀, w, rfl, hget, -, rfl⟩ := UserType.exists_of_markAgainst_eq_sum e hr
  obtain ⟨v₀, hv₀, rfl⟩ := List.mem_map.mp hv
  change d.get? u₀.tag = _ at hget
  change (v₀.markAmong w).removed = false ↔
    ∃ w', d.get? u₀.tag = some (.user (.sum w')) ∧ (v₀.markAmong w).FoundIn w'
  have hr₀ := (UserType.unmarked_sum_iff.mp (unmarked_iff.mp hm _ ht₀)).2 v₀ hv₀
  have hfound : (v₀.markAmong w).FoundIn w ↔ v₀.FoundIn w := by
    rw [← ProductType.foundIn_unmarked, ProductType.unmarked_markAmong,
      ProductType.foundIn_unmarked]
  rw [ProductType.removed_markAmong, hget, ← hfound]
  simp [hr₀]

/-! ## Against a valid domain -/

section Valid

variable (hd : d.errors = [])

include hd

theorem foundAs_product_iff :
    (UserType.product p).FoundAs (d.get? p.tag) ↔
      ∃ q, .product q ∈ d.userTypes ∧ p.SameShape q := by
  constructor
  · intro h
    generalize hget : d.get? p.tag = target at h
    cases h with | product h => exact ⟨_, (mem_of_get?_eq_user hget).1, h⟩
  · rintro ⟨q, hq, h⟩
    have hget : d.get? p.tag = some (.user (.product q)) := h.1 ▸ get?_of_mem hd hq
    exact hget ▸ .product h

theorem foundAs_sum_iff :
    (UserType.sum u).FoundAs (d.get? u.tag) ↔ ∃ w, .sum w ∈ d.userTypes ∧ w.tag = u.tag := by
  constructor
  · intro h
    generalize hget : d.get? u.tag = target at h
    cases h with | sum => exact ⟨_, mem_of_get?_eq_user hget⟩
  · rintro ⟨w, hw, h⟩
    have hget : d.get? u.tag = some (.user (.sum w)) := h ▸ get?_of_mem hd hw
    exact hget ▸ .sum u w

theorem foundIn_iff {v : ProductType} (hu : .sum u ∈ d.userTypes) :
    v.FoundIn u ↔ ∃ w ∈ u.variants, v.SameShape w := by
  constructor
  · rintro ⟨w, hw, h⟩
    exact ⟨w, List.mem_of_find?_eq_some hw, h⟩
  · rintro ⟨w, hw, h⟩
    exact ⟨w, h.1 ▸ find?_key_of_mem (nodup_variants_of_mem hd hu) hw, h⟩

theorem shared_of_mem_survivors (hm : s.unmarked = s) (hx : x ∈ (s.delta d).survivors) :
    Shared s d x := by
  obtain ⟨t, ht, hx⟩ := List.mem_flatMap.mp hx
  obtain ⟨hr, hx⟩ := UserType.mem_survivors.mp hx
  have hfound := (isRemoved_of_mem_delta hm ht).mp hr
  have hs := unmarked_mem_of_mem_delta hm ht
  rcases hx with rfl | ⟨u, rfl, v, hv, hrv, rfl⟩
  · cases t with
    | product p =>
      obtain ⟨q, hq, h⟩ := (foundAs_product_iff hd).mp hfound
      exact .product (p := p.unmarked) hs hq h
    | sum u =>
      obtain ⟨w, hw, h⟩ := (foundAs_sum_iff hd).mp hfound
      exact .sum (a := u.unmarked) hs hw h.symm
  · obtain ⟨w, hget, hin⟩ := (removed_of_mem_delta hm ht hr hv).mp hrv
    obtain ⟨hw, htag⟩ := mem_of_get?_eq_user hget
    obtain ⟨v', hv', h⟩ := (foundIn_iff hd hw).mp hin
    exact .variant (a := u.unmarked) (v := v.unmarked) hs hw htag.symm
      (List.mem_map_of_mem hv) hv' h

theorem Shared.mem_survivors (hm : s.unmarked = s) (h : Shared s d x) :
    x ∈ (s.delta d).survivors := by
  have hsurvives : ∀ {t}, t ∈ s.userTypes → t.FoundAs (d.get? t.tag) →
      (t.markAgainst (d.get? t.tag)).isRemoved = false := fun ht hfound =>
    UserType.isRemoved_markAgainst.mpr
      ⟨UserType.isRemoved_of_unmarked (unmarked_iff.mp hm _ ht), hfound⟩
  -- each part stands in the delta where it stands in `s`
  cases h with
  | @product p q hp hq h =>
    have hr := hsurvives hp ((foundAs_product_iff hd).mpr ⟨q, hq, h⟩)
    refine List.mem_flatMap.mpr ⟨_, List.mem_map_of_mem hp, UserType.mem_survivors.mpr ⟨hr, ?_⟩⟩
    rw [UserType.tag_markAgainst]
    exact Or.inl rfl
  | @sum a b ha hb h =>
    have hr := hsurvives ha ((foundAs_sum_iff hd).mpr ⟨b, hb, h.symm⟩)
    refine List.mem_flatMap.mpr ⟨_, List.mem_map_of_mem ha, UserType.mem_survivors.mpr ⟨hr, ?_⟩⟩
    rw [UserType.tag_markAgainst]
    exact Or.inl rfl
  | @variant a b v w ha hb h hv hw hvw =>
    have hr := hsurvives ha ((foundAs_sum_iff hd).mpr ⟨b, hb, h.symm⟩)
    have hget : d.get? a.tag = some (.user (.sum b)) := h ▸ get?_of_mem hd hb
    have hmark : (UserType.sum a).markAgainst (d.get? a.tag) = .sum (a.markAgainst b) := by
      rw [hget]; rfl
    have hrv : (v.markAmong b).removed = false := ProductType.removed_markAmong.mpr
      ⟨(UserType.unmarked_sum_iff.mp (unmarked_iff.mp hm _ ha)).2 v hv,
        (foundIn_iff hd hb).mpr ⟨w, hw, hvw⟩⟩
    refine List.mem_flatMap.mpr ⟨_, List.mem_map_of_mem ha, UserType.mem_survivors.mpr
      ⟨hr, Or.inr ⟨a.markAgainst b, hmark, v.markAmong b, List.mem_map_of_mem hv, hrv, ?_⟩⟩⟩
    rw [ProductType.tag_markAmong]
    rfl

/-- **What survives in the delta** against a valid domain is what both domains have. -/
theorem mem_survivors_delta (hm : s.unmarked = s) :
    x ∈ (s.delta d).survivors ↔ Shared s d x :=
  ⟨shared_of_mem_survivors hd hm, Shared.mem_survivors hd hm⟩

end Valid

/-- **A valid domain survives in its own delta** as it is. -/
theorem delta_self (hs : s.errors = []) : s.delta s = s := by
  have htypes : s.userTypes.map (fun t => t.markAgainst (s.get? t.tag)) = s.userTypes := by
    conv_rhs => rw [← List.map_id s.userTypes]
    refine List.map_congr_left fun t ht => ?_
    rw [get?_of_mem hs ht]
    cases t with
    | product p => exact congrArg UserType.product p.markAgainst_self
    | sum u =>
      have hvariants : u.variants.map (·.markAmong u) = u.variants := by
        conv_rhs => rw [← List.map_id u.variants]
        refine List.map_congr_left fun v hv => ?_
        have hfind := find?_key_of_mem (nodup_variants_of_mem hs ht) hv
        rw [ProductType.markAmong, SumType.variant?, hfind]
        exact v.markAgainst_self
      exact congrArg (fun vs => UserType.sum { u with variants := vs }) hvariants
  exact congrArg (fun ts => { s with userTypes := ts }) htypes

/-- **Survival is exact and symmetric.** Let two valid domains have no marks. The delta of the one
against the other is the former with marks. A product has none if and only if the other domain has
a product of the same tag, encoding and signature, a sum if and only if the other has a sum of its
tag, and a variant of such a sum if and only if the other sum has a variant of the same tag,
encoding and signature. So the same parts survive in both directions, and all of a domain against
itself. -/
theorem survival_exact_and_symmetric (hs : s.errors = []) (hd : d.errors = [])
    (hms : s.unmarked = s) (hmd : d.unmarked = d) :
    (s.delta d).unmarked = s ∧
    (∀ p, .product p ∈ (s.delta d).userTypes →
      (p.removed = false ↔ ∃ q, .product q ∈ d.userTypes ∧
        p.tag = q.tag ∧ p.encoding = q.encoding ∧ p.signature = q.signature)) ∧
    (∀ u, .sum u ∈ (s.delta d).userTypes →
      (u.removed = false ↔ ∃ w, .sum w ∈ d.userTypes ∧ w.tag = u.tag) ∧
      (u.removed = false → ∀ v ∈ u.variants,
        (v.removed = false ↔ ∃ w, .sum w ∈ d.userTypes ∧ w.tag = u.tag ∧ ∃ v' ∈ w.variants,
          v.tag = v'.tag ∧ v.encoding = v'.encoding ∧ v.signature = v'.signature))) ∧
    (∀ x, x ∈ (s.delta d).survivors ↔ x ∈ (d.delta s).survivors) ∧
    s.delta s = s := by
  refine ⟨(unmarked_delta s d).trans hms, fun p hp => ?_, fun u hu => ⟨?_, fun hr v hv => ?_⟩,
    fun x => ?_, delta_self hs⟩
  · exact (isRemoved_of_mem_delta hms hp).trans (foundAs_product_iff hd)
  · exact (isRemoved_of_mem_delta hms hu).trans (foundAs_sum_iff hd)
  · rw [removed_of_mem_delta hms hu hr hv]
    constructor
    · rintro ⟨w, hget, hin⟩
      obtain ⟨hw, htag⟩ := mem_of_get?_eq_user hget
      exact ⟨w, hw, htag, (foundIn_iff hd hw).mp hin⟩
    · rintro ⟨w, hw, htag, hin⟩
      have hget : d.get? u.tag = some (.user (.sum w)) := htag ▸ get?_of_mem hd hw
      exact ⟨w, hget, (foundIn_iff hd hw).mpr hin⟩
  · rw [mem_survivors_delta hd hms, mem_survivors_delta hs hmd]
    exact ⟨Shared.symm, Shared.symm⟩

/-- Two versions: one product moves, one gets a field more, one becomes a sum; in the sum one
variant moves, one gets another field type, one is dropped and one is new. -/
theorem survival_between_versions :
    let int : TypeRef := { typeName := "int" }
    let expr : TypeRef := { typeName := "expr" }
    let point : ProductType :=
      { tag := "point", fields := [{ name := "x", type := int }, { name := "y", type := int }] }
    let pair (fs : List Field) : ProductType :=
      { tag := "pair", fields := { name := "a", type := int } :: fs }
    let add : ProductType :=
      { tag := "add", fields := [{ name := "l", type := expr }, { name := "r", type := expr }] }
    let lit (r : TypeRef) : ProductType := { tag := "lit", fields := [{ name := "n", type := r }] }
    let s : Domain :=
      { tag := "v1", userTypes := [.product point, .product (pair []), .product { tag := "shape" },
          .sum { tag := "expr", variants := [lit int, add, { tag := "neg" }] }] }
    let d : Domain :=
      { tag := "v2", userTypes := [
          .sum { tag := "expr", variants := [add, lit expr, { tag := "mul" }] },
          .sum { tag := "shape" }, .product (pair [{ name := "b", type := int }]),
          .product { point with origin := Origin.ofPosition ⟨3, 1, 0⟩ }] }
    s.errors = [] ∧ d.errors = [] ∧ s.unmarked = s ∧ d.unmarked = d ∧
      (s.delta d).survivors = [.type "point", .type "expr", .variant "expr" "add"] ∧
      (∀ x, x ∈ (s.delta d).survivors ↔ x ∈ (d.delta s).survivors) ∧ s.delta s = s := by
  intro int expr point pair add lit s d
  have hs : s.errors = [] := by decide
  have hd : d.errors = [] := by decide
  have hms : s.unmarked = s := by decide
  have hmd : d.unmarked = d := by decide
  obtain ⟨-, -, -, hsymm, hself⟩ := survival_exact_and_symmetric hs hd hms hmd
  exact ⟨hs, hd, hms, hmd, by decide, hsymm, hself⟩

end Domain

end VersionedTypes
