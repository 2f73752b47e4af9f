import VersionedTypes.Delta
import VersionedTypes.Proofs.Lists
import VersionedTypes.Proofs.Shape
import VersionedTypes.Proofs.Validation

/-!
# Looking up and marking

A delta compares every type of a domain with the type that the other domain has under its tag.
Where tags are told apart the type that is found is the only one.

* `Domain.get?_of_not_builtin`, `Domain.get?_of_mem`: what is found under a tag;
* `ProductType.markAgainst_self`, `UserType.markAgainst_none`: what is found again stays as it is,
  and what is not found is marked;
* `UserType.withMarks`: a type with marks set anew;
* **`UserType.markAgainst_sum`**: the marks in a sum;
* `UserType.tag_markAgainst`, `Domain.get?_delta`: a delta has the same tags, with marked types;
* `UserType.FoundAs`, `ProductType.FoundIn`: what a type, or a variant, is compared with lets it
  survive;
* **`UserType.isRemoved_markAgainst`**, `ProductType.removed_markAmong`: only then it gets no mark;
* `Domain.unmarked_delta`: a delta sets marks only.
-/

namespace VersionedTypes

/-! ## What is found under a tag -/

namespace Domain

variable {d : Domain} {tag : String} {t : UserType}

theorem builtin_find?_eq_none (h : tag ∉ Builtin.tags) :
    (Builtin.all.map SchemaType.builtin).find? (·.tag == tag) = none := by
  rw [find?_key_eq_none_iff, List.map_map]
  exact h

/-- The builtins are found first. -/
theorem get?_of_not_builtin (h : tag ∉ Builtin.tags) :
    d.get? tag = (d.user? tag).map SchemaType.user := by
  rw [get?, types, List.find?_append, builtin_find?_eq_none h, Option.none_or, List.find?_map]
  rfl

theorem mem_of_get?_eq_user (h : d.get? tag = some (.user t)) : t ∈ d.userTypes ∧ t.tag = tag := by
  have hmem := List.mem_of_find?_eq_some h
  have htag : (SchemaType.user t).tag = tag := by simpa using List.find?_some h
  refine ⟨?_, htag⟩
  rcases List.mem_append.mp hmem with hm | hm
  · obtain ⟨b, -, hb⟩ := List.mem_map.mp hm
    cases hb
  · obtain ⟨t', ht, e⟩ := List.mem_map.mp hm
    cases e
    exact ht

theorem get?_of_mem (hd : d.errors = []) (ht : t ∈ d.userTypes) :
    d.get? t.tag = some (.user t) := by
  have hfind := find?_key_of_mem (nodup_tags_of_errors_eq_nil hd) ht
  rw [get?_of_not_builtin (not_builtin_of_mem hd ht), user?, hfind]
  rfl

end Domain

/-! ## Marks -/

@[simp] theorem ProductType.markAgainst_self (p : ProductType) : p.markAgainst p = p :=
  if_pos p.sameShape_self

@[simp] theorem UserType.markAgainst_none (t : UserType) : t.markAgainst none = t.markRemoved := by
  cases t with
  | product p => rfl
  | sum s => rfl

/-- The type with the given marks, on itself and on the variants of a sum. -/
def UserType.withMarks (removed : Bool) (variants : ProductType → Bool) : UserType → UserType
  | .product p => .product { p with removed }
  | .sum s =>
    .sum { s with variants := s.variants.map fun v => { v with removed := variants v }, removed }

theorem UserType.markRemoved_eq {t : UserType} (h : t.unmarked = t) :
    t.markRemoved = t.withMarks true (fun _ => false) := by
  conv_lhs => rw [← h]
  cases t with
  | product p => rfl
  | sum s => rfl

theorem ProductType.unmarked_eq_self_iff {p : ProductType} :
    p.unmarked = p ↔ p.removed = false := by
  cases p
  simp [ProductType.unmarked, eq_comm]

theorem UserType.unmarked_product_iff {p : ProductType} :
    (UserType.product p).unmarked = .product p ↔ p.removed = false := by
  rw [← ProductType.unmarked_eq_self_iff]
  exact ⟨UserType.product.inj, congrArg UserType.product⟩

theorem UserType.unmarked_sum_iff {s : SumType} : (UserType.sum s).unmarked = .sum s ↔
    s.removed = false ∧ ∀ v ∈ s.variants, v.removed = false := by
  have hvariants : s.variants.map ProductType.unmarked = s.variants ↔
      ∀ v ∈ s.variants, v.removed = false := by
    simp only [map_eq_self_iff, ProductType.unmarked_eq_self_iff]
  rw [← hvariants]
  cases s
  simp [UserType.unmarked, SumType.unmarked, and_comm, eq_comm]

/-- **The marks in a sum** that has none yet, against a sum: the sum is not marked, and a variant is
if the other sum has none of its tag. Where the other sum has one of its tag, it is the same. -/
theorem UserType.markAgainst_sum {s target : SumType} {marked : ProductType → Bool}
    (hs : (UserType.sum s).unmarked = .sum s)
    (hm : ∀ v ∈ s.variants, target.variant? v.tag = if marked v then none else some v) :
    (UserType.sum s).markAgainst (some (.user (.sum target))) =
      (UserType.sum s).withMarks false marked := by
  obtain ⟨hremoved, hvariants⟩ := unmarked_sum_iff.mp hs
  have hmap : (s.markAgainst target).variants =
      s.variants.map fun v => { v with removed := marked v } := by
    unfold SumType.markAgainst
    refine List.map_congr_left fun v hv => ?_
    rw [hm v hv]
    cases hmv : marked v with
    | true => rfl
    | false =>
      have hv : v = { v with removed := false } := by rw [← hvariants v hv]
      simpa using hv
  change UserType.sum { s with variants := (s.markAgainst target).variants } = UserType.sum _
  rw [hmap, ← hremoved]

/-! ## Marks change no tag and no field -/

theorem ProductType.fields_markAgainst (p target : ProductType) :
    (p.markAgainst target).fields = p.fields := by
  unfold markAgainst
  split <;> rfl

theorem UserType.tag_markAgainst (t : UserType) (target : Option SchemaType) :
    (t.markAgainst target).tag = t.tag := by
  unfold markAgainst
  split
  · next p q =>
    change (p.markAgainst q).tag = p.tag
    unfold ProductType.markAgainst
    split <;> rfl
  · rfl
  · cases t <;> rfl

/-- Builtins are never marked. -/
def SchemaType.markAgainst : SchemaType → Option SchemaType → SchemaType
  | .builtin b, _ => .builtin b
  | .user t, target => .user (t.markAgainst target)

theorem SchemaType.tag_markAgainst (t : SchemaType) (target : Option SchemaType) :
    (t.markAgainst target).tag = t.tag := by
  cases t with
  | builtin b => rfl
  | user t => exact t.tag_markAgainst target

namespace Domain

theorem types_delta (d e : Domain) :
    (d.delta e).types = d.types.map fun t => t.markAgainst (e.get? t.tag) := by
  rw [types, types, List.map_append, List.map_map, List.map_map, delta, List.map_map]
  rfl

theorem get?_delta (d e : Domain) (tag : String) :
    (d.delta e).get? tag = (d.get? tag).map (·.markAgainst (e.get? tag)) := by
  rw [get?, types_delta, find?_key_map fun t => t.tag_markAgainst (e.get? t.tag)]
  change (d.get? tag).map _ = _
  cases hd : d.get? tag with
  | none => rfl
  | some t =>
    have ht : t.tag = tag := by simpa using List.find?_some hd
    rw [Option.map_some, Option.map_some, ht]

end Domain

/-! ## Found again -/

namespace ProductType

variable {p q : ProductType}

/-- The sum has, as its first variant of this tag, one of this shape. -/
def FoundIn (v : ProductType) (target : SumType) : Prop :=
  ∃ w, target.variant? v.tag = some w ∧ v.SameShape w

/-- Marked unless `target` has a variant of the tag and the shape. -/
def markAmong (v : ProductType) (target : SumType) : ProductType :=
  match target.variant? v.tag with
  | some w => v.markAgainst w
  | none => v.markRemoved

theorem markAmong_eq (v : ProductType) (target : SumType) :
    v.markAmong target = (target.variant? v.tag).elim v.markRemoved v.markAgainst := by
  unfold markAmong
  cases target.variant? v.tag <;> rfl

theorem removed_markAgainst :
    (p.markAgainst q).removed = false ↔ p.removed = false ∧ p.SameShape q := by
  unfold markAgainst
  split
  · next h => exact ⟨fun hp => ⟨hp, h⟩, And.left⟩
  · next h => exact ⟨nofun, fun hp => absurd hp.2 h⟩

theorem removed_markAmong {v : ProductType} {target : SumType} :
    (v.markAmong target).removed = false ↔ v.removed = false ∧ v.FoundIn target := by
  unfold markAmong FoundIn
  cases target.variant? v.tag with
  | none => exact ⟨nofun, fun ⟨_, _, hw, _⟩ => nomatch hw⟩
  | some w => simp [removed_markAgainst]

theorem tag_markAmong (v : ProductType) (target : SumType) : (v.markAmong target).tag = v.tag := by
  unfold markAmong markAgainst
  split
  · split <;> rfl
  · rfl

theorem unmarked_markAgainst (p q : ProductType) : (p.markAgainst q).unmarked = p.unmarked := by
  unfold markAgainst
  split <;> rfl

theorem unmarked_markAmong (v : ProductType) (target : SumType) :
    (v.markAmong target).unmarked = v.unmarked := by
  unfold markAmong
  split
  · exact unmarked_markAgainst ..
  · rfl

theorem foundIn_unmarked {v : ProductType} {target : SumType} :
    v.unmarked.FoundIn target ↔ v.FoundIn target := Iff.rfl

end ProductType

/-! ## Which marks are set -/

theorem SumType.variants_markAgainst (s target : SumType) :
    (s.markAgainst target).variants = s.variants.map (·.markAmong target) := rfl

theorem SumType.variant?_markAgainst (s target : SumType) (tag : String) :
    (s.markAgainst target).variant? tag = (s.variant? tag).map (·.markAmong target) := by
  rw [variant?, variants_markAgainst, find?_key_map fun v => v.tag_markAmong target]
  rfl

namespace UserType

variable {t u : UserType} {target : Option SchemaType}

/-- What the type is compared with lets it survive: a product of the same shape, or any sum. -/
inductive FoundAs : UserType → Option SchemaType → Prop
  | product {p q : ProductType} (h : p.SameShape q) :
    FoundAs (.product p) (some (.user (.product q)))
  | sum (s w : SumType) : FoundAs (.sum s) (some (.user (.sum w)))

theorem FoundAs.exists_user (h : t.FoundAs target) : ∃ u, target = some (.user u) := by
  cases h with
  | product => exact ⟨_, rfl⟩
  | sum => exact ⟨_, rfl⟩

theorem FoundAs.trans (h : t.FoundAs (some (.user u))) (h' : u.FoundAs target) :
    t.FoundAs target := by
  cases h with
  | product h => cases h' with | product h' => exact .product (h.trans h')
  | sum s => cases h' with | sum => exact .sum s _

/-- **The mark of a type**: what had none before has none if and only if the type is found. -/
theorem isRemoved_markAgainst :
    (t.markAgainst target).isRemoved = false ↔ t.isRemoved = false ∧ t.FoundAs target := by
  have hmarked : ∀ u : UserType, u.markRemoved.isRemoved = true := fun u => by cases u <;> rfl
  unfold markAgainst
  split
  · next p q =>
    refine ProductType.removed_markAgainst.trans (and_congr Iff.rfl ⟨.product, fun h => ?_⟩)
    cases h with | product h => exact h
  · next s w => exact ⟨fun h => ⟨h, .sum s w⟩, And.left⟩
  · next hproduct hsum =>
    rw [hmarked]
    refine ⟨nofun, fun ⟨_, h⟩ => ?_⟩
    cases h with
    | product => exact absurd rfl (hproduct _ _ rfl)
    | sum => exact absurd rfl (hsum _ _ rfl)

theorem exists_of_markAgainst_eq_sum {s : SumType} (h : t.markAgainst target = .sum s)
    (hs : s.removed = false) : ∃ s₀ w, t = .sum s₀ ∧ target = some (.user (.sum w)) ∧
      s₀.removed = false ∧ s₀.markAgainst w = s := by
  have hr : (t.markAgainst target).isRemoved = false := by rw [h]; exact hs
  obtain ⟨hr₀, hfound⟩ := isRemoved_markAgainst.mp hr
  cases hfound with
  | product => cases h
  | sum s₀ w => exact ⟨s₀, w, rfl, rfl, hr₀, UserType.sum.inj h⟩

theorem unmarked_markAgainst (t : UserType) (target : Option SchemaType) :
    (t.markAgainst target).unmarked = t.unmarked := by
  unfold markAgainst
  split
  · next p q => exact congrArg UserType.product (p.unmarked_markAgainst q)
  · next s s' =>
    have hvariants : (s.markAgainst s').variants.map ProductType.unmarked =
        s.variants.map ProductType.unmarked := by
      rw [SumType.variants_markAgainst, List.map_map]
      exact List.map_congr_left fun v _ => v.unmarked_markAmong s'
    exact congrArg (fun vs => UserType.sum { s with variants := vs, removed := false }) hvariants
  · cases t <;> rfl

theorem foundAs_unmarked : t.unmarked.FoundAs target ↔ t.FoundAs target := by
  cases t with
  | product p =>
    constructor
    · rintro ⟨h⟩; exact .product h
    · rintro ⟨h⟩; exact .product h
  | sum s =>
    constructor
    · rintro ⟨⟩; exact .sum s _
    · rintro ⟨⟩; exact .sum _ _

theorem isRemoved_of_unmarked (h : t.unmarked = t) : t.isRemoved = false := by
  rw [← h]
  cases t <;> rfl

end UserType

/-- **A delta sets marks only.** -/
theorem Domain.unmarked_delta (s d : Domain) : (s.delta d).unmarked = s.unmarked := by
  have htypes : (s.delta d).userTypes.map UserType.unmarked =
      s.userTypes.map UserType.unmarked := by
    rw [delta, List.map_map]
    exact List.map_congr_left fun t _ => t.unmarked_markAgainst _
  exact congrArg (fun ts => { s with userTypes := ts }) htypes

end VersionedTypes
