import VersionedTypes.Proofs.Permutation.Meaning
import VersionedTypes.Proofs.Validation.Mistakes

/-!
# Whose mistake it is

A permutation of a valid base can give a domain with mistakes. Each of them is its own: it brings
the type, the variant or the field that repeats a name, it brings the field without a type, or it
leaves the type of the field out. What is kept of the base stands in front of all that is new, so
that nothing of the base is ever the later one of two.

* `Permutation.Brings`: the products that are new;
* `Permutation.mem_sums_result`, `Permutation.mem_products_or_brings`: where the parts of the result
  come from;
* `Permutation.Causes`: the mistakes that a permutation makes;
* **`Permutation.errors_caused`**: the mistakes in a permuted domain are these.
-/

namespace VersionedTypes

namespace Permutation

variable {p : Permutation} {base : Domain} {q : ProductType} {s : SumType} {e : ValidationError}
  {name : String}

/-! ## What is kept and what is new -/

/-- The products that a permutation brings: those of the types that it includes, and the variants
that it adds. -/
inductive Brings (p : Permutation) (q : ProductType) : Prop
  | included {t : UserType} (ht : .user t ∈ p.included) (hq : q ∈ t.products)
  | added {e : SumEdit} (he : e ∈ p.sumEdits) (hq : q ∈ e.added)

theorem mem_sums_result :
    s ∈ (p.result base).sums ↔
      (∃ a, .sum a ∈ base.without p.excluded.names ∧ a.edited p.sumEdits = s) ∨
        .user (.sum s) ∈ p.included := by
  rw [Domain.mem_sums, mem_userTypes_result]
  refine or_congr_left ⟨?_, ?_⟩
  · rintro ⟨_ | a, ha, ⟨⟩⟩
    exact ⟨a, ha, rfl⟩
  · rintro ⟨a, ha, rfl⟩
    exact ⟨_, ha, rfl⟩

theorem mem_sums_of_mem_without (h : .sum s ∈ base.without p.excluded.names) : s ∈ base.sums :=
  Domain.mem_sums.mpr (List.mem_of_mem_filter h)

theorem mem_products_or_brings (h : q ∈ (p.result base).products) :
    q ∈ base.products ∨ p.Brings q := by
  rcases Domain.mem_products.mp h with h | ⟨s, hs, hq⟩
  · rcases mem_userTypes_result.mp h with ⟨_ | a, ha, ⟨⟩⟩ | hincluded
    · exact Or.inl (Domain.mem_products.mpr (Or.inl (List.mem_of_mem_filter ha)))
    · exact Or.inr (.included hincluded (List.mem_singleton_self q))
  · rcases mem_sums_result.mp hs with ⟨a, ha, rfl⟩ | hincluded
    · obtain ⟨kept, added, h, hkept, hadded⟩ := a.exists_variantsAfter_eq_append p.sumEdits
      have hq : q ∈ kept ++ added := h ▸ (show q ∈ a.variantsAfter p.sumEdits from hq)
      rcases List.mem_append.mp hq with hq | hq
      · exact Or.inl (Domain.mem_products.mpr
          (Or.inr ⟨a, mem_sums_of_mem_without ha, hkept.subset hq⟩))
      · obtain ⟨e, he, -, hq⟩ := hadded q hq
        exact Or.inr (.added he hq)
    · exact Or.inr (.included hincluded hq)

theorem mem_excluded_of_not_names (hbase : base.Names name) (h : ¬ (p.result base).Names name) :
    name ∈ p.excluded.names := by
  by_contra hx
  rcases hbase with hb | ht
  · exact h (Or.inl hb)
  · refine h (Or.inr ?_)
    rw [result, List.map_append, List.mem_append, tags_keptAfter, mem_tags_without]
    exact Or.inl ⟨ht, hx⟩

/-! ## The mistakes of a permutation -/

/-- The mistakes that a permutation makes on a base. -/
inductive Causes (p : Permutation) (base : Domain) : ValidationError → Prop
  /-- An included type, behind the types that are kept. -/
  | type {t : UserType}
      (h : IsRepeat UserType.tag
        (Builtin.tags ++ (p.keptAfter base p.sumEdits).map UserType.tag)
        (p.included.filterMap SchemaType.user?) t) :
    Causes p base ⟨.duplicateType p.tag t.tag, t.origin⟩
  | includedVariant {s : SumType} {v : ProductType} (hs : .user (.sum s) ∈ p.included)
      (h : IsRepeat ProductType.tag [] s.variants v) :
    Causes p base ⟨.duplicateVariant s.tag v.tag, v.origin⟩
  /-- A variant that is added to the sum `s`, behind the variants that are kept. -/
  | addedVariant {s : SumType} {kept added : List ProductType} {v : ProductType}
      (hs : .sum s ∈ base.without p.excluded.names)
      (hv : s.variantsAfter p.sumEdits = kept ++ added) (hkept : kept.Sublist s.variants)
      (hadded : ∀ v ∈ added, EditsAdd p.sumEdits s.tag v)
      (h : IsRepeat ProductType.tag (kept.map ProductType.tag) added v) :
    Causes p base ⟨.duplicateVariant s.tag v.tag, v.origin⟩
  | field {q : ProductType} {f : Field} (hq : q ∈ (p.result base).products) (hp : p.Brings q)
      (h : IsRepeat Field.name [] q.fields f) :
    Causes p base ⟨.duplicateField q.tag f.name, f.origin⟩
  | reference {q : ProductType} {f : Field} (hq : q ∈ (p.result base).products) (hf : f ∈ q.fields)
      (h : ¬ (p.result base).Names f.type.typeName)
      (hp : p.Brings q ∨ f.type.typeName ∈ p.excluded.names) :
    Causes p base ⟨.undefinedReference p.tag f.type.typeName, f.type.origin⟩

/-- What the permutation makes is a mistake. -/
theorem hasMistake_of_causes (h : p.Causes base e) : (p.result base).HasMistake e := by
  cases h with
  | type h => exact .type (isRepeat_append.mpr (Or.inr h))
  | includedVariant hs h => exact .variant (mem_sums_result.mpr (Or.inr hs)) h
  | @addedVariant s kept added v hs hv hkept hadded h =>
    have hrepeat : IsRepeat ProductType.tag [] (s.variantsAfter p.sumEdits) v :=
      hv ▸ isRepeat_append.mpr (Or.inr h)
    exact .variant (s := s.edited p.sumEdits) (mem_sums_result.mpr (Or.inl ⟨s, hs, rfl⟩)) hrepeat
  | field hq _ h => exact .field hq h
  | reference hq hf h _ => exact .reference hq hf h

/-- On a valid base, every mistake in the result is that of the permutation. -/
theorem causes_of_hasMistake (hb : base.errors = []) (h : (p.result base).HasMistake e) :
    p.Causes base e := by
  obtain ⟨-, -, hsums, hproducts⟩ := Domain.wellFormed_iff.mp (Domain.errors_eq_nil_iff.mp hb)
  -- what is kept stands in front and has no repeats, so a repeat stands behind it
  cases h with
  | @type t h =>
    have hkept : Fresh UserType.tag Builtin.tags (p.keptAfter base p.sumEdits) := by
      refine ⟨nodup_tags_keptAfter hb _, fun t ht => ?_⟩
      obtain ⟨u, hu, rfl⟩ := List.mem_map.mp ht
      rw [UserType.tag_edited]
      exact not_builtin_of_mem_without hb hu
    exact .type ((isRepeat_append.mp h).resolve_left
      (fresh_iff_forall_not_isRepeat.mp hkept t))
  | @variant s v hs h =>
    rcases mem_sums_result.mp hs with ⟨a, ha, rfl⟩ | hincluded
    · obtain ⟨kept, added, hv, hkept, hadded⟩ := a.exists_variantsAfter_eq_append p.sumEdits
      have hfresh : Fresh ProductType.tag [] kept :=
        fresh_empty.mpr ((hsums a (mem_sums_of_mem_without ha)).sublist (hkept.map _))
      have hrepeat : IsRepeat ProductType.tag [] (kept ++ added) v := hv ▸ h
      exact .addedVariant (s := a) ha hv hkept hadded ((isRepeat_append.mp hrepeat).resolve_left
        (fresh_iff_forall_not_isRepeat.mp hfresh v))
    · exact .includedVariant hincluded h
  | @field q f hq h =>
    rcases mem_products_or_brings hq with hbase | hp
    · exact absurd h (fresh_iff_forall_not_isRepeat.mp
        (fresh_empty.mpr (hproducts q hbase).1) f)
    · exact .field hq hp h
  | @reference q f hq hf h =>
    refine .reference hq hf h ?_
    rcases mem_products_or_brings hq with hbase | hp
    · exact Or.inr (mem_excluded_of_not_names ((hproducts q hbase).2 f hf) h)
    · exact Or.inl hp

/-- A permutation that excludes, includes and adds nothing makes no mistake. -/
theorem not_causes_of_removals (hx : p.excluded.names = []) (hi : p.included = [])
    (ha : ∀ e ∈ p.sumEdits, e.added = []) : ¬ p.Causes base e := by
  have hbrings : ∀ q, ¬ p.Brings q := by
    rintro q (⟨ht, -⟩ | ⟨he, hq⟩)
    · rw [hi] at ht
      cases ht
    · rw [ha _ he] at hq
      cases hq
  intro h
  cases h with
  | type h =>
    have hmem := mem_filterMap_user?.mp h.mem
    rw [hi] at hmem
    cases hmem
  | includedVariant hs _ =>
    rw [hi] at hs
    cases hs
  | addedVariant _ _ _ hadded h =>
    obtain ⟨e, he, -, hv⟩ := hadded _ h.mem
    exact hbrings _ (.added he hv)
  | field _ hp _ => exact hbrings _ hp
  | reference _ _ _ hp =>
    rcases hp with hp | hp
    · exact hbrings _ hp
    · rw [hx] at hp
      cases hp

/-- **The mistakes in a permuted domain are those of the permutation.** If the base is valid, and
the permutation gives a domain, its mistakes are exactly these: an included type behind another one
of its tag; a variant behind another one of its tag, in a sum that is included, or added to a sum
that is kept; a field of its product's name twice, in an included type or an added variant; and a
field without a type, in an included type or an added variant, or whose type is excluded. So a
permutation that excludes, includes and adds nothing gives a valid domain. -/
theorem errors_caused {p : Permutation} {domains : DomainMap} {base d : Domain}
    (hbase : domains.get? p.base = some base) (hb : base.errors = [])
    (h : p.apply domains = .ok d) :
    (∀ e, e ∈ d.errors ↔ p.Causes base e) ∧
      (p.excluded.names = [] → p.included = [] → (∀ e ∈ p.sumEdits, e.added = []) →
        d.errors = []) := by
  have hiff : ∀ e, e ∈ d.errors ↔ p.Causes base e := by
    intro e
    rw [eq_result_of_apply hb hbase h, Domain.mem_errors_iff]
    exact ⟨causes_of_hasMistake hb, hasMistake_of_causes⟩
  refine ⟨hiff, fun hx hi ha => List.eq_nil_iff_forall_not_mem.mpr fun e he => ?_⟩
  exact not_causes_of_removals hx hi ha ((hiff e).mp he)

/-- A version that leaves a type out on which another one depends, and brings mistakes of every kind,
and one that takes a variant out only. -/
theorem errors_caused_by_version :
    let f (name type : String) : Field := { name, type := { typeName := type } }
    let base : Domain :=
      { tag := "v1",
        userTypes := [.product { tag := "point", fields := [f "x" "int"] },
          .product { tag := "line", fields := [f "from" "point", f "to" "point"] },
          .sum { tag := "shape", variants := [{ tag := "dot" }, { tag := "box" }] }] }
    let domains : DomainMap := OrderedMap.empty.insert "v1" base
    let p : Permutation :=
      { tag := "v2", base := "v1", excluded := NameSet.empty.insert "point",
        included := [.builtin .int,
          .user (.product { tag := "line", fields := [f "from" "int", f "from" "int"] })],
        sumEdits := [
          { tag := "shape", removed := ["dot"],
            added := [{ tag := "box", fields := [f "size" "gone"] }, { tag := "dot" }] }] }
    let q : Permutation :=
      { tag := "v2", base := "v1", sumEdits := [{ tag := "shape", removed := ["dot"] }] }
    domains.get? p.base = some base ∧ base.errors = [] ∧
      (∃ d, p.apply domains = .ok d ∧ (∀ e, e ∈ d.errors ↔ p.Causes base e) ∧
        d.errors.map (·.problem) =
          [.duplicateType "v2" "line", .undefinedReference "v2" "point",
            .undefinedReference "v2" "point", .duplicateVariant "shape" "box",
            .undefinedReference "v2" "gone", .duplicateField "line" "from"]) ∧
      ∃ d, q.apply domains = .ok d ∧ d.errors = [] := by
  intro f base domains p q
  have hb : base.errors = [] := by decide
  have hp : p.apply domains = .ok (p.result base) := by decide
  have hq : q.apply domains = .ok (q.result base) := by decide
  refine ⟨rfl, hb, ⟨_, hp, (errors_caused rfl hb hp).1, by decide⟩, _, hq, ?_⟩
  exact (errors_caused rfl hb hq).2 rfl rfl (by decide)

end Permutation

end VersionedTypes
