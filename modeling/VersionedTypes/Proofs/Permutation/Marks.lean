import VersionedTypes.Proofs.Delta
import VersionedTypes.Proofs.Permutation.Meaning

/-!
# The delta of a permutation is its edits

A domain and a permutation of it are compared type by type, without a look at the permutation. If
the permutation brings in only tags that are new, the marks of the comparison are the edits: in the
delta of the base against the result what the permutation takes out is marked, and in the delta of
the result against the base what it brings in.

* `Permutation.BringsNew`, `Permutation.Unmarked`: what is asked of the permutation;
* `SumType.unmarked_edited`, `Permutation.unmarked_of_mem_result`: what has no marks;
* `SumType.variant?_edited`, `SumType.variant?_of_edited`: which variants are found again;
* `SumType.markAgainst_edited`, `SumType.edited_markAgainst`: the marks between a sum and the edited
  one;
* `Permutation.get?_result_of_excluded`, `Permutation.get?_result_of_kept`: which types are found
  again;
* `Permutation.delta_base_result`, `Permutation.delta_result_base`: the marks in both directions;
* **`Permutation.delta_marks_edits`**: the deltas between a valid base and its permutation.
-/

namespace VersionedTypes

/-! ## Sums without marks -/

theorem SumType.unmarked_edited {s : SumType} {es : List SumEdit}
    (hs : (UserType.sum s).unmarked = .sum s) (ha : ∀ v, EditsAdd es s.tag v → v.removed = false) :
    (UserType.sum (s.edited es)).unmarked = .sum (s.edited es) := by
  obtain ⟨hremoved, hvariants⟩ := UserType.unmarked_sum_iff.mp hs
  obtain ⟨kept, added, h, hkept, hadded⟩ := s.exists_variantsAfter_eq_append es
  refine UserType.unmarked_sum_iff.mpr ⟨hremoved, fun v hv => ?_⟩
  change v ∈ s.variantsAfter es at hv
  rw [h] at hv
  rcases List.mem_append.mp hv with hv | hv
  · exact hvariants v (hkept.subset hv)
  · exact ha v (hadded v hv)

/-! ## Variants that are found again -/

namespace SumType

variable {s : SumType} {es : List SumEdit} {v : ProductType}
  (hn : (s.variants.map ProductType.tag).Nodup)
  (hnew : ∀ v, EditsAdd es s.tag v → v.tag ∉ s.variants.map ProductType.tag)

include hn hnew

theorem variant?_edited (hv : v ∈ s.variants) :
    (s.edited es).variant? v.tag = if EditsRemove es s.tag v.tag then none else some v := by
  obtain ⟨more, hmore, hadd⟩ := exists_variantsAfter_eq hn hnew
  have hnone : more.find? (·.tag == v.tag) = none := by
    rw [find?_key_eq_none_iff]
    intro h
    obtain ⟨w, hw, e⟩ := List.mem_map.mp h
    exact hnew w (hadd w hw) (e ▸ List.mem_map_of_mem hv)
  have hfilter : ((s.variants.filter fun v => ¬ EditsRemove es s.tag v.tag).map
      ProductType.tag).Nodup := hn.sublist (List.filter_sublist.map _)
  change (s.variantsAfter es).find? _ = _
  rw [hmore, List.find?_append, hnone, Option.or_none]
  by_cases hr : EditsRemove es s.tag v.tag
  · rw [if_pos hr, find?_key_eq_none_iff]
    intro h
    obtain ⟨w, hw, e⟩ := List.mem_map.mp h
    have hkept := (List.mem_filter.mp hw).2
    rw [e] at hkept
    simp [hr] at hkept
  · rw [if_neg hr]
    exact find?_key_of_mem hfilter (List.mem_filter.mpr ⟨hv, by simpa using hr⟩)

theorem variant?_of_edited (hv : v ∈ s.variantsAfter es) :
    s.variant? v.tag = if EditsAdd es s.tag v then none else some v := by
  obtain ⟨more, hmore, hadd⟩ := exists_variantsAfter_eq hn hnew
  by_cases ha : EditsAdd es s.tag v
  · rw [if_pos ha]
    exact find?_key_eq_none_iff.mpr (hnew v ha)
  · rw [if_neg ha]
    rw [hmore] at hv
    rcases List.mem_append.mp hv with hv | hv
    · exact find?_key_of_mem hn (List.mem_of_mem_filter hv)
    · exact absurd (hadd v hv) ha

/-- **Against the edited sum**, the variants are marked that an edit removes. -/
theorem markAgainst_edited (hs : (UserType.sum s).unmarked = .sum s) :
    (UserType.sum s).markAgainst (some (.user (.sum (s.edited es)))) =
      (UserType.sum s).withMarks false fun v => EditsRemove es s.tag v.tag := by
  refine UserType.markAgainst_sum hs fun v hv => ?_
  rw [variant?_edited hn hnew hv]
  simp

/-- **The edited sum against the sum itself**: the variants are marked that an edit adds. -/
theorem edited_markAgainst (hs : (UserType.sum (s.edited es)).unmarked = .sum (s.edited es)) :
    (UserType.sum (s.edited es)).markAgainst (some (.user (.sum s))) =
      (UserType.sum (s.edited es)).withMarks false fun v => EditsAdd es s.tag v := by
  refine UserType.markAgainst_sum hs fun v hv => ?_
  rw [variant?_of_edited hn hnew hv]
  simp

end SumType

namespace Permutation

/-- Nothing that the permutation brings in has a tag that the base has in its place: included types
none of a type of the base, added variants none of a variant of the sum. -/
structure BringsNew (p : Permutation) (base : Domain) : Prop where
  included : ∀ t ∈ p.included, t.tag ∉ base.types.map SchemaType.tag
  added : ∀ e ∈ p.sumEdits, ∀ s, .sum s ∈ base.userTypes → s.tag = e.tag →
    ∀ v ∈ e.added, v.tag ∉ s.variants.map ProductType.tag

/-- What the permutation brings in has no marks. -/
structure Unmarked (p : Permutation) : Prop where
  included : ∀ t, .user t ∈ p.included → t.unmarked = t
  added : ∀ e ∈ p.sumEdits, ∀ v ∈ e.added, v.removed = false

variable {p : Permutation} {base : Domain} {t : UserType} {s : SumType} {v : ProductType}

theorem BringsNew.of_editsAdd (h : p.BringsNew base) (hs : .sum s ∈ base.userTypes)
    (hv : EditsAdd p.sumEdits s.tag v) : v.tag ∉ s.variants.map ProductType.tag := by
  obtain ⟨e, he, ht, hv⟩ := hv
  exact h.added e he s hs ht.symm v hv

theorem BringsNew.get?_eq_none (h : p.BringsNew base) (ht : .user t ∈ p.included) :
    base.get? t.tag = none :=
  find?_key_eq_none_iff.mpr (h.included _ ht)

theorem BringsNew.find?_included (h : p.BringsNew base) (ht : t ∈ base.userTypes) :
    (p.included.filterMap SchemaType.user?).find? (·.tag == t.tag) = none := by
  rw [find?_key_eq_none_iff]
  intro hmem
  obtain ⟨u, hu, e⟩ := List.mem_map.mp hmem
  obtain ⟨_ | u', hu', e'⟩ := List.mem_filterMap.mp hu
  · cases e'
  · cases e'
    refine h.included _ hu' (List.mem_map.mpr ⟨.user t, ?_, e.symm⟩)
    exact List.mem_append_right _ (List.mem_map_of_mem ht)

/-! ## A result without marks -/

theorem unmarked_of_mem_keptAfter (hm : ∀ t ∈ base.userTypes, t.unmarked = t) (hp : p.Unmarked)
    (ht : t ∈ base.without p.excluded.names) :
    (t.edited p.sumEdits).unmarked = t.edited p.sumEdits := by
  have htypes := List.mem_of_mem_filter ht
  cases t with
  | product q => exact hm _ htypes
  | sum s =>
    refine SumType.unmarked_edited (hm _ htypes) ?_
    rintro v ⟨e, he, -, hv⟩
    exact hp.added e he v hv

/-- **If nothing is marked before**, nothing is marked in the result. -/
theorem unmarked_of_mem_result (hm : ∀ t ∈ base.userTypes, t.unmarked = t) (hp : p.Unmarked)
    (ht : t ∈ (p.result base).userTypes) : t.unmarked = t := by
  rcases mem_userTypes_result.mp ht with ⟨u, hu, rfl⟩ | ht
  · exact unmarked_of_mem_keptAfter hm hp hu
  · exact hp.included t ht

section Valid

variable (hb : base.errors = [])

include hb

/-! ## Types that are found again -/

theorem get?_result (hnew : p.BringsNew base) (ht : t ∈ base.userTypes) :
    (p.result base).get? t.tag =
      ((p.keptAfter base p.sumEdits).find? (·.tag == t.tag)).map SchemaType.user := by
  have hnb := Domain.not_builtin_of_mem hb ht
  rw [Domain.get?_of_not_builtin hnb, Domain.user?, result, List.find?_append,
    hnew.find?_included ht, Option.or_none]

theorem get?_result_of_excluded (hnew : p.BringsNew base) (ht : t ∈ base.userTypes)
    (hx : t.tag ∈ p.excluded.names) : (p.result base).get? t.tag = none := by
  rw [get?_result hb hnew ht, Option.map_eq_none_iff, find?_key_eq_none_iff, tags_keptAfter,
    mem_tags_without]
  exact fun h => h.2 hx

theorem get?_result_of_kept (hnew : p.BringsNew base) (ht : t ∈ base.without p.excluded.names) :
    (p.result base).get? t.tag = some (.user (t.edited p.sumEdits)) := by
  have hmem : t.edited p.sumEdits ∈ p.keptAfter base p.sumEdits := List.mem_map_of_mem ht
  have hfind := find?_key_of_mem (nodup_tags_keptAfter hb p.sumEdits) hmem
  rw [UserType.tag_edited] at hfind
  rw [get?_result hb hnew (List.mem_of_mem_filter ht), hfind]
  rfl

/-! ## Marks -/

/-- **The delta of the base against the result** marks the excluded types, and in the other sums the
variants that an edit removes. -/
theorem delta_base_result (hm : ∀ t ∈ base.userTypes, t.unmarked = t) (hnew : p.BringsNew base) :
    (base.delta (p.result base)).userTypes = base.userTypes.map fun t =>
      t.withMarks (t.tag ∈ p.excluded.names) fun v =>
        t.tag ∉ p.excluded.names ∧ EditsRemove p.sumEdits t.tag v.tag := by
  refine List.map_congr_left fun t ht => ?_
  by_cases hx : t.tag ∈ p.excluded.names
  · rw [get?_result_of_excluded hb hnew ht hx, UserType.markAgainst_none]
    simp only [hx, not_true_eq_false, false_and, decide_true, decide_false]
    rw [UserType.markRemoved_eq (hm t ht)]
  · have hkept : t ∈ base.without p.excluded.names :=
      List.mem_filter.mpr ⟨ht, by simpa using hx⟩
    rw [get?_result_of_kept hb hnew hkept]
    simp only [hx, not_false_eq_true, true_and, decide_false]
    cases t with
    | product q =>
      have hq : (UserType.product q).unmarked = .product q := hm _ ht
      change UserType.product (q.markAgainst q) = (UserType.product q).unmarked
      rw [ProductType.markAgainst_self, hq]
    | sum s =>
      have hn := Domain.nodup_variants_of_mem hb ht
      exact SumType.markAgainst_edited hn (fun _ => hnew.of_editsAdd ht) (hm _ ht)

/-- **The delta of the result against the base** marks the included types, and in the other sums the
variants that an edit adds. -/
theorem delta_result_base (hm : ∀ t ∈ base.userTypes, t.unmarked = t) (hp : p.Unmarked)
    (hnew : p.BringsNew base) :
    ((p.result base).delta base).userTypes =
      ((p.keptAfter base p.sumEdits).map fun t =>
        t.withMarks false fun v => EditsAdd p.sumEdits t.tag v) ++
      (p.included.filterMap SchemaType.user?).map (fun t => t.withMarks true fun _ => false) := by
  have hkept : ∀ t ∈ p.keptAfter base p.sumEdits, t.markAgainst (base.get? t.tag) =
      t.withMarks false fun v => EditsAdd p.sumEdits t.tag v := by
    intro u hu
    obtain ⟨t, ht, rfl⟩ := List.mem_map.mp hu
    have htypes := List.mem_of_mem_filter ht
    have hunmarked := unmarked_of_mem_keptAfter hm hp ht
    rw [UserType.tag_edited, Domain.get?_of_mem hb htypes]
    cases t with
    | product q =>
      change UserType.product (q.markAgainst q) = (UserType.product q).unmarked
      rw [ProductType.markAgainst_self]
      exact hunmarked.symm
    | sum s =>
      have hn := Domain.nodup_variants_of_mem hb htypes
      exact SumType.edited_markAgainst hn (fun _ => hnew.of_editsAdd htypes) hunmarked
  have hincluded : ∀ t ∈ p.included.filterMap SchemaType.user?,
      t.markAgainst (base.get? t.tag) = t.withMarks true fun _ => false := by
    intro t ht
    obtain ⟨_ | u, hu, e⟩ := List.mem_filterMap.mp ht
    · cases e
    · cases e
      rw [hnew.get?_eq_none hu, UserType.markAgainst_none,
        UserType.markRemoved_eq (hp.included t hu)]
  change ((p.result base).userTypes.map fun t => t.markAgainst (base.get? t.tag)) = _
  rw [result, List.map_append, List.map_congr_left hkept, List.map_congr_left hincluded]

end Valid

/-! ## The deltas of a permutation -/

/-- **The deltas of a permutation are its edits.** If a permutation that brings in only what is new
turns a valid base into `r`, nothing being marked before, then the delta of the base against `r`
marks the excluded types, and in a sum that is not excluded the variants that an edit removes. The
types of `r` are the kept types and the included ones. The delta of `r` against the base marks the
included types, and in a kept sum the variants that an edit adds. -/
theorem delta_marks_edits (p : Permutation) (domains : DomainMap) (base r : Domain)
    (hbase : domains.get? p.base = some base) (hb : base.errors = [])
    (hm : ∀ t ∈ base.userTypes, t.unmarked = t) (hp : p.Unmarked) (hnew : p.BringsNew base)
    (hr : p.apply domains = .ok r) :
    (base.delta r).userTypes =
      base.userTypes.map (fun t => t.withMarks (t.tag ∈ p.excluded.names) fun v =>
        t.tag ∉ p.excluded.names ∧ EditsRemove p.sumEdits t.tag v.tag) ∧
    r.userTypes = p.keptAfter base p.sumEdits ++ p.included.filterMap SchemaType.user? ∧
    (r.delta base).userTypes =
      (p.keptAfter base p.sumEdits).map
        (fun t => t.withMarks false fun v => EditsAdd p.sumEdits t.tag v) ++
      (p.included.filterMap SchemaType.user?).map
        (fun t => t.withMarks true fun _ => false) := by
  obtain rfl := eq_result_of_apply hb hbase hr
  exact ⟨delta_base_result hb hm hnew, rfl, delta_result_base hb hm hp hnew⟩

/-- A type and a variant leave, a variant comes and leaves again, others come to stay. -/
theorem delta_marks_of_version :
    let old : UserType := .product { tag := "point" }
    let new : UserType := .product { tag := "vec" }
    let add : ProductType := { tag := "add" }
    let lit : ProductType :=
      { tag := "lit", fields := [{ name := "n", type := { typeName := "int" } }] }
    let neg : ProductType :=
      { tag := "neg", fields := [{ name := "e", type := { typeName := "expr" } }] }
    let mul : ProductType := { tag := "mul" }
    let base : Domain :=
      { tag := "v1", userTypes := [old, .sum { tag := "expr", variants := [add, lit] }] }
    let p : Permutation :=
      { tag := "v2", base := "v1", excluded := NameSet.empty.insert "point",
        included := [.user new],
        sumEdits := [{ tag := "expr", removed := ["add"], added := [mul, neg] },
          { tag := "expr", removed := ["mul"] }] }
    let r : Domain :=
      { tag := "v2", userTypes := [.sum { tag := "expr", variants := [lit, neg] }, new] }
    base.errors = [] ∧ p.apply (OrderedMap.empty.insert "v1" base) = .ok r ∧
      (base.delta r).userTypes =
        [old.markRemoved, .sum { tag := "expr", variants := [add.markRemoved, lit] }] ∧
      (r.delta base).userTypes =
        [.sum { tag := "expr", variants := [lit, neg.markRemoved] }, new.markRemoved] := by
  intro old new add lit neg mul base p r
  have hb : base.errors = [] := by decide
  have hm : ∀ t ∈ base.userTypes, t.unmarked = t := by decide
  have hp : p.Unmarked := ⟨by simp [p, new, UserType.unmarked, ProductType.unmarked], by decide⟩
  have hnew : p.BringsNew base := ⟨by decide, by simp [p, base, old, add, lit, mul, neg]⟩
  have hr : p.apply (OrderedMap.empty.insert "v1" base) = .ok r := by decide
  obtain ⟨hout, -, hin⟩ := delta_marks_edits p _ base r rfl hb hm hp hnew hr
  exact ⟨hb, hr, hout, hin⟩

end Permutation

end VersionedTypes
