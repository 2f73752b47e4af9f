import Mathlib.Data.List.Forall2
import VersionedTypes.Proofs.Delta

/-!
# What a delta looks at in its destination

A delta compares shapes, so it looks neither at marks nor at origins of the destination. What is
marked in a second comparison with the same destination was marked in the first one. Of a valid
destination the order does not matter either, neither that of its types nor that of the variants of
a sum; the order of fields does, since it is part of the shape.

* `UserType.content`: a type without marks and origins;
* `ProductType.markAgainst_congr`: only the content of what a product is compared with counts;
* `UserType.Alike`, `UserType.markAgainst_congr`: types that make the same of what is compared with
  them;
* `UserType.markAgainst_markAgainst`: the second comparison with a type marks nothing else;
* `UserType.Rearranges`, `Domain.Rearranges`: the same content in another order;
* **`Domain.delta_congr`**: destinations of the same types lead to the same delta;
* **`Domain.delta_of_same_content`**: idempotence, and what a delta does not depend on.
-/

namespace VersionedTypes

/-- The type without marks and origins. -/
def UserType.content (t : UserType) : UserType := t.unmarked.bare

/-! ## Products -/

namespace ProductType

variable {p q v : ProductType} {a b : SumType}

theorem markAgainst_congr (h : p.content = q.content) : v.markAgainst p = v.markAgainst q := by
  unfold markAgainst
  simp only [sameShape_iff_content_eq, h]

theorem markAgainst_markAgainst (p q : ProductType) :
    (p.markAgainst q).markAgainst q = p.markAgainst q := by
  by_cases h : p.SameShape q
  · have hp : p.markAgainst q = p := if_pos h
    rw [hp, hp]
  · have hp : p.markAgainst q = p.markRemoved := if_neg h
    have hmarked : ¬ p.markRemoved.SameShape q := h
    rw [hp]
    exact if_neg hmarked

theorem markAmong_markAmong (v : ProductType) (target : SumType) :
    (v.markAmong target).markAmong target = v.markAmong target := by
  rw [markAmong_eq (v.markAmong target), tag_markAmong, markAmong_eq]
  cases target.variant? v.tag with
  | none => rfl
  | some w => exact v.markAgainst_markAgainst w

/-- Only the content of the first variant of each tag counts. -/
theorem markAmong_congr (h : ∀ tag, (a.variant? tag).map content = (b.variant? tag).map content) :
    v.markAmong a = v.markAmong b := by
  have ht := h v.tag
  rw [markAmong_eq, markAmong_eq]
  cases ha : a.variant? v.tag with
  | none =>
    rw [ha, Option.map_none, eq_comm, Option.map_eq_none_iff] at ht
    rw [ht]
  | some w =>
    rw [ha, Option.map_some, eq_comm, Option.map_eq_some_iff] at ht
    obtain ⟨x, hx, hxw⟩ := ht
    rw [hx]
    exact markAgainst_congr hxw.symm

end ProductType

theorem SumType.variants_content (s : SumType) :
    s.unmarked.bare.variants = s.variants.map ProductType.content :=
  List.map_map

theorem SumType.map_content_variant? (s : SumType) (tag : String) :
    (s.variant? tag).map ProductType.content =
      (s.variants.map ProductType.content).find? (·.tag == tag) :=
  (find?_key_map ProductType.tag_content).symm

/-! ## Types -/

namespace UserType

variable {t u u' : UserType} {target : Option SchemaType}

/-- Nothing that a comparison looks at tells the two types apart. -/
inductive Alike : UserType → UserType → Prop
  | product {p q : ProductType} (h : p.content = q.content) : Alike (.product p) (.product q)
  | sum {a b : SumType} (h : a.tag = b.tag)
      (hv : ∀ tag, (a.variant? tag).map ProductType.content =
        (b.variant? tag).map ProductType.content) : Alike (.sum a) (.sum b)

theorem Alike.tag_eq (h : u.Alike u') : u.tag = u'.tag := by
  cases h with
  | product h => exact (ProductType.sameShape_iff_content_eq.mpr h).1
  | sum h => exact h

/-- **Alike types make the same** of what is compared with them. -/
theorem markAgainst_congr (h : u.Alike u') :
    t.markAgainst (some (.user u)) = t.markAgainst (some (.user u')) := by
  cases h with
  | product h =>
    cases t with
    | product p => exact congrArg UserType.product (ProductType.markAgainst_congr h)
    | sum s => rfl
  | @sum a b _ hv =>
    cases t with
    | product p => rfl
    | sum s =>
      have hvariants : (s.markAgainst a).variants = (s.markAgainst b).variants :=
        List.map_congr_left fun v _ => ProductType.markAmong_congr hv
      exact congrArg (fun vs => UserType.sum { s with variants := vs }) hvariants

/-- **The second comparison** with a type marks nothing else. -/
theorem markAgainst_markAgainst (t : UserType) (target : Option SchemaType) :
    (t.markAgainst target).markAgainst target = t.markAgainst target := by
  rcases target with _ | _ | q | w
  · cases t <;> rfl
  · cases t <;> rfl
  · cases t with
    | product p => exact congrArg UserType.product (p.markAgainst_markAgainst q)
    | sum s => rfl
  · cases t with
    | product p => rfl
    | sum s =>
      have hvariants : ((s.markAgainst w).markAgainst w).variants = (s.markAgainst w).variants := by
        rw [SumType.variants_markAgainst, SumType.variants_markAgainst, List.map_map]
        exact List.map_congr_left fun v _ => v.markAmong_markAmong w
      exact congrArg (fun vs => UserType.sum { s with variants := vs }) hvariants

theorem alike_of_content_eq (h : t.content = u.content) : t.Alike u := by
  cases t with
  | product p =>
    cases u with
    | product q => exact .product (UserType.product.inj h)
    | sum b => cases h
  | sum a =>
    cases u with
    | product q => cases h
    | sum b =>
      have hsum : a.unmarked.bare = b.unmarked.bare := UserType.sum.inj h
      have htag : a.unmarked.bare.tag = b.unmarked.bare.tag := congrArg SumType.tag hsum
      have hvariants : a.variants.map ProductType.content = b.variants.map ProductType.content := by
        rw [← SumType.variants_content, hsum, SumType.variants_content]
      refine .sum htag fun tag => ?_
      rw [SumType.map_content_variant?, hvariants, SumType.map_content_variant?]

/-- The same content, with the variants of a sum in any order. -/
inductive Rearranges : UserType → UserType → Prop
  | product {p q : ProductType} (h : p.content = q.content) : Rearranges (.product p) (.product q)
  | sum {a b : SumType} (h : a.tag = b.tag)
      (hv : (a.variants.map ProductType.content).Perm (b.variants.map ProductType.content)) :
    Rearranges (.sum a) (.sum b)

theorem Rearranges.alike (h : t.Rearranges u)
    (hn : ∀ a, t = .sum a → (a.variants.map ProductType.tag).Nodup) : t.Alike u := by
  cases h with
  | product h => exact .product h
  | @sum a b h hv =>
    refine .sum h fun tag => ?_
    have hkeys : ((a.variants.map ProductType.content).map ProductType.tag).Nodup := by
      rw [List.map_map]
      exact hn a rfl
    rw [SumType.map_content_variant?, SumType.map_content_variant?, find?_key_of_perm hkeys hv]

end UserType

/-! ## Domains -/

namespace Domain

variable {s d d' : Domain} {tag : String}

/-- Both domains declare the same types up to marks and origins, in any order, with the variants of
each sum in any order. -/
def Rearranges (d d' : Domain) : Prop :=
  ∃ types, d.userTypes.Perm types ∧ List.Forall₂ UserType.Rearranges types d'.userTypes

theorem find?_of_alike {ts us : List UserType} (h : List.Forall₂ UserType.Alike ts us)
    (tag : String) :
    Option.Rel UserType.Alike (ts.find? (·.tag == tag)) (us.find? (·.tag == tag)) :=
  rel_find?_key h fun _ _ htu => htu.tag_eq

theorem get?_of_builtin (h : tag ∈ Builtin.tags) : d.get? tag = d'.get? tag := by
  have hsome : ((Builtin.all.map SchemaType.builtin).find? (·.tag == tag)).isSome := by
    rw [Option.isSome_iff_ne_none, ne_eq, find?_key_eq_none_iff, List.map_map]
    exact not_not.mpr h
  obtain ⟨b, hb⟩ := Option.isSome_iff_exists.mp hsome
  rw [get?, get?, types, types, List.find?_append, List.find?_append, hb, Option.some_or,
    Option.some_or]

/-- **Destinations of alike types** lead to the same delta. -/
theorem delta_congr
    (h : ∀ tag, tag ∉ Builtin.tags → Option.Rel UserType.Alike (d.user? tag) (d'.user? tag)) :
    s.delta d = s.delta d' := by
  have htypes : ∀ t ∈ s.userTypes,
      t.markAgainst (d.get? t.tag) = t.markAgainst (d'.get? t.tag) := by
    intro t _
    by_cases ht : t.tag ∈ Builtin.tags
    · rw [get?_of_builtin ht]
    · have hrel := h t.tag ht
      rw [get?_of_not_builtin ht, get?_of_not_builtin ht]
      generalize d.user? t.tag = u at hrel ⊢
      generalize d'.user? t.tag = u' at hrel ⊢
      cases hrel with
      | none => rfl
      | some halike => exact UserType.markAgainst_congr halike
  exact congrArg (fun ts => { s with userTypes := ts }) (List.map_congr_left htypes)

theorem forall₂_alike_of_map_content_eq {ts us : List UserType}
    (h : ts.map UserType.content = us.map UserType.content) :
    List.Forall₂ UserType.Alike ts us := by
  have hcontent : List.Forall₂ (fun t u : UserType => t.content = u.content) ts us := by
    rwa [← List.forall₂_eq_eq_eq, List.forall₂_map_left_iff, List.forall₂_map_right_iff] at h
  exact hcontent.imp fun _ _ => UserType.alike_of_content_eq

theorem delta_of_content_eq
    (h : d.userTypes.map UserType.content = d'.userTypes.map UserType.content) :
    s.delta d = s.delta d' :=
  delta_congr fun tag _ => find?_of_alike (forall₂_alike_of_map_content_eq h) tag

theorem delta_of_rearranges (hd : d.errors = []) (h : d.Rearranges d') :
    s.delta d = s.delta d' := by
  obtain ⟨types, hperm, htypes⟩ := h
  have halike : List.Forall₂ UserType.Alike types d'.userTypes := by
    rw [List.forall₂_iff_zip] at htypes ⊢
    refine ⟨htypes.1, fun {t u} htu => (htypes.2 htu).alike ?_⟩
    rintro a rfl
    exact nodup_variants_of_mem hd (hperm.mem_iff.mpr (List.of_mem_zip htu).1)
  refine delta_congr fun tag _ => ?_
  rw [user?, find?_key_of_perm (nodup_tags_of_errors_eq_nil hd) hperm]
  exact find?_of_alike halike tag

theorem map_content_delta (d e : Domain) :
    (d.delta e).userTypes.map UserType.content = d.userTypes.map UserType.content := by
  have hunmarked : (d.delta e).unmarked.userTypes = d.unmarked.userTypes := by
    rw [unmarked_delta]
  have hcontent := congrArg (List.map UserType.bare) hunmarked
  rwa [unmarked, unmarked, List.map_map, List.map_map] at hcontent

theorem delta_delta_self (s d : Domain) : (s.delta d).delta d = s.delta d := by
  refine congrArg (fun ts => { s with userTypes := ts }) ?_
  rw [delta, List.map_map]
  refine List.map_congr_left fun t _ => ?_
  rw [Function.comp_apply, UserType.tag_markAgainst, UserType.markAgainst_markAgainst]

/-- **A delta depends on the content of its destination only.** A second delta with the same
destination changes nothing. Destinations whose types are the same up to marks and origins lead to
the same delta, whatever they are called themselves; so a delta stands in for its source. If the
destination is valid, any other that declares the same in another order leads to the same delta. -/
theorem delta_of_same_content (s d : Domain) :
    (s.delta d).delta d = s.delta d ∧
    (∀ d', d.userTypes.map UserType.content = d'.userTypes.map UserType.content →
      s.delta d = s.delta d') ∧
    (∀ e, s.delta (d.delta e) = s.delta d) ∧
    (∀ d', d.errors = [] → d.Rearranges d' → s.delta d = s.delta d') :=
  ⟨delta_delta_self s d, fun _ => delta_of_content_eq,
    fun e => delta_of_content_eq (map_content_delta d e), fun _ => delta_of_rearranges⟩

/-- The second destination declares what the first does in another order, a variant has a mark, and
a type has an origin. In both cases the same survives. -/
theorem delta_of_rearranged_version :
    let int : TypeRef := { typeName := "int" }
    let point : ProductType := { tag := "point", fields := [{ name := "x", type := int }] }
    let lit : ProductType := { tag := "lit", fields := [{ name := "n", type := int }] }
    let neg : ProductType := { tag := "neg" }
    let s : Domain :=
      { tag := "v1", userTypes := [.sum { tag := "expr", variants := [{ tag := "lit" }, neg] },
          .product point, .product { tag := "unit" }] }
    let d : Domain :=
      { tag := "v2", userTypes := [.product point, .sum { tag := "expr", variants := [neg, lit] }] }
    let d' : Domain :=
      { tag := "v3", userTypes := [.sum { tag := "expr", variants := [lit, neg.markRemoved] },
          .product { point with origin := Origin.ofPosition ⟨3, 1, 0⟩ }] }
    d.errors = [] ∧ d.Rearranges d' ∧ s.delta d = s.delta d' ∧
      (s.delta d).userTypes.map UserType.isRemoved = [false, false, true] := by
  intro int point lit neg s d d'
  have hd : d.errors = [] := by decide
  have hr : d.Rearranges d' := by
    refine ⟨_, List.Perm.swap .., .cons (.sum rfl ?_) (.cons (.product rfl) .nil)⟩
    exact List.Perm.swap ..
  obtain ⟨-, -, -, hdelta⟩ := delta_of_same_content s d
  exact ⟨hd, hr, hdelta d' hd hr, by decide⟩

/-- The order of fields is part of a shape. -/
example : ¬ ProductType.SameShape
    { tag := "point", fields := [{ name := "x", type := { typeName := "int" } },
        { name := "y", type := { typeName := "int" } }] }
    { tag := "point", fields := [{ name := "y", type := { typeName := "int" } },
        { name := "x", type := { typeName := "int" } }] } := by decide

end Domain

end VersionedTypes
