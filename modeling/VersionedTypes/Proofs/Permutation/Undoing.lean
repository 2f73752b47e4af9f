import VersionedTypes.Proofs.Permutation.Removals

/-!
# Undoing additions

A permutation that only includes types and adds variants can be undone, if what it gives is valid:
then nothing that it brings has a tag that was there before, so taking these tags out again takes
nothing else. The order in which they are taken out does not matter.

* `addedTo`, `removedFrom`: all that edits add to a sum and remove from it;
* `SumType.variantsAfter_of_additions`, `SumType.variantsAfter_of_removals`: edits of one kind only;
* `Permutation.OnlyAdds`, `Permutation.Undoes`: a permutation that only adds, and one that takes out
  what another one brings;
* `Permutation.Undoes.without_result`, `Permutation.Undoes.fits`: it can be done;
* `Permutation.Undoes.edited_edited`: its edits give every type of the base back;
* **`Permutation.additions_undone`**: so it gives the types of the base back.
-/

namespace VersionedTypes

/-! ## Edits of one kind -/

/-- The variants that edits add to a sum, in order. -/
def addedTo (es : List SumEdit) (sum : String) : List ProductType :=
  (es.filter (·.tag == sum)).flatMap SumEdit.added

/-- The names of the variants that edits take out of a sum, in order. -/
def removedFrom (es : List SumEdit) (sum : String) : List String :=
  (es.filter (·.tag == sum)).flatMap SumEdit.removed

theorem removedFrom_append (es es' : List SumEdit) (sum : String) :
    removedFrom (es ++ es') sum = removedFrom es sum ++ removedFrom es' sum := by
  unfold removedFrom
  rw [List.filter_append, List.flatMap_append]

theorem removedFrom_cons_of_tag_eq {e : SumEdit} {sum : String} (h : e.tag = sum)
    (es : List SumEdit) : removedFrom (e :: es) sum = e.removed ++ removedFrom es sum := by
  unfold removedFrom
  rw [List.filter_cons_of_pos (by simpa using h), List.flatMap_cons]

section OneKind

variable {es : List SumEdit} {s : SumType} {variants : List ProductType}

theorem foldl_variantsAfter_of_additions (h : ∀ e ∈ es, e.removed = []) :
    es.foldl (fun variants e => e.variantsAfter variants) variants =
      variants ++ es.flatMap SumEdit.added := by
  induction es generalizing variants with
  | nil => simp
  | cons e es ih =>
    obtain ⟨he, hes⟩ := List.forall_mem_cons.mp h
    rw [List.foldl_cons, ih hes, SumEdit.variantsAfter, he, removeVariants_nil, List.append_assoc,
      List.flatMap_cons]

theorem foldl_variantsAfter_of_removals (h : ∀ e ∈ es, e.added = []) :
    es.foldl (fun variants e => e.variantsAfter variants) variants =
      removeVariants variants (es.flatMap SumEdit.removed) := by
  induction es generalizing variants with
  | nil => rfl
  | cons e es ih =>
    obtain ⟨he, hes⟩ := List.forall_mem_cons.mp h
    rw [List.foldl_cons, ih hes, SumEdit.variantsAfter, he, List.append_nil, List.flatMap_cons,
      removeVariants_append]

theorem SumType.variantsAfter_of_additions (h : ∀ e ∈ es, e.removed = []) :
    s.variantsAfter es = s.variants ++ addedTo es s.tag :=
  foldl_variantsAfter_of_additions fun e he => h e (List.mem_of_mem_filter he)

theorem SumType.variantsAfter_of_removals (h : ∀ e ∈ es, e.added = []) :
    s.variantsAfter es = removeVariants s.variants (removedFrom es s.tag) :=
  foldl_variantsAfter_of_removals fun e he => h e (List.mem_of_mem_filter he)

end OneKind

/-! ## Taking out what was brought -/

namespace Permutation

/-- Nothing is left out, no variant is removed, and of the included types none is a builtin. -/
structure OnlyAdds (p : Permutation) : Prop where
  excluded : p.excluded.names = []
  sumEdits : ∀ e ∈ p.sumEdits, e.removed = []
  included : ∀ t ∈ p.included, t.kind.isBuiltin = false

/-- **`q` takes out what `p` brings**: the types that it includes and, edit by edit, the variants
that it adds to a sum. Exclusions and edits may come in any order. -/
structure Undoes (q p : Permutation) : Prop where
  excluded : ∀ tag, tag ∈ q.excluded.names ↔ tag ∈ p.included.map SchemaType.tag
  included : q.included = []
  sumEdits : (q.sumEdits.map fun e => (e.tag, e.removed, e.added)).Perm
    (p.sumEdits.map fun e => (e.tag, e.added.map ProductType.tag, []))

/-- Take out what `p` brings, in the same order. -/
def undo (p : Permutation) (tag : String) : Permutation where
  tag
  base := p.tag
  excluded := NameSet.ofList (p.included.map SchemaType.tag)
  sumEdits := p.sumEdits.map fun e => { tag := e.tag, removed := e.added.map ProductType.tag }

theorem undo_undoes (p : Permutation) (tag : String) : (p.undo tag).Undoes p where
  excluded _ := NameSet.mem_ofList
  included := rfl
  sumEdits := by
    rw [undo, List.map_map]
    exact .refl _

variable {p q : Permutation} {base : Domain} {tag : String} {e : SumEdit} {a : SumType}

theorem OnlyAdds.mem_tags_included (h : p.OnlyAdds) :
    tag ∈ p.included.map SchemaType.tag ↔
      tag ∈ (p.included.filterMap SchemaType.user?).map UserType.tag := by
  constructor
  · intro htag
    obtain ⟨_ | t, ht, rfl⟩ := List.mem_map.mp htag
    · cases h.included _ ht
    · exact List.mem_map_of_mem (mem_filterMap_user?.mpr ht)
  · intro htag
    obtain ⟨t, ht, rfl⟩ := List.mem_map.mp htag
    exact List.mem_map.mpr ⟨_, mem_filterMap_user?.mp ht, rfl⟩

theorem OnlyAdds.keptAfter (h : p.OnlyAdds) :
    p.keptAfter base p.sumEdits = base.userTypes.map (UserType.edited p.sumEdits) := by
  rw [Permutation.keptAfter, h.excluded, without_nil]

theorem OnlyAdds.variants_edited (h : p.OnlyAdds) :
    (a.edited p.sumEdits).variants = a.variants ++ addedTo p.sumEdits a.tag :=
  SumType.variantsAfter_of_additions h.sumEdits

namespace Undoes

theorem exists_edit (h : q.Undoes p) (he : e ∈ q.sumEdits) :
    ∃ e' ∈ p.sumEdits, e'.tag = e.tag ∧ e.added = [] := by
  obtain ⟨e', hmem, he'⟩ := List.mem_map.mp (h.sumEdits.subset (List.mem_map_of_mem he))
  simp only [Prod.mk.injEq] at he'
  exact ⟨e', hmem, he'.1, he'.2.2.symm⟩

theorem added_eq_nil (h : q.Undoes p) (he : e ∈ q.sumEdits) : e.added = [] := by
  obtain ⟨-, -, -, hadded⟩ := h.exists_edit he
  exact hadded

theorem removedFrom_perm (h : q.Undoes p) (sum : String) :
    (removedFrom q.sumEdits sum).Perm ((addedTo p.sumEdits sum).map ProductType.tag) := by
  have hperm := (h.sumEdits.filter (·.1 == sum)).flatMap_right (·.2.1)
  unfold removedFrom addedTo
  simpa [List.filter_map, List.flatMap_map, List.map_flatMap, Function.comp_def] using hperm

/-! ### On a valid result -/

section Valid

variable (hq : q.Undoes p) (hadds : p.OnlyAdds) (hr : (p.result base).errors = [])

include hq hadds hr

theorem without_result :
    (p.result base).without q.excluded.names =
      base.userTypes.map (UserType.edited p.sumEdits) := by
  have hn := Domain.nodup_tags_of_errors_eq_nil hr
  rw [result, hadds.keptAfter, List.map_append, List.nodup_append] at hn
  have hkept : ∀ t ∈ base.userTypes.map (UserType.edited p.sumEdits),
      t.tag ∉ q.excluded.names := by
    intro t ht hx
    have hincluded := hadds.mem_tags_included.mp ((hq.excluded _).mp hx)
    exact hn.2.2 _ (List.mem_map_of_mem ht) _ hincluded rfl
  have hnew : ∀ t ∈ p.included.filterMap SchemaType.user?, t.tag ∈ q.excluded.names := by
    intro t ht
    exact (hq.excluded _).mpr (hadds.mem_tags_included.mpr (List.mem_map_of_mem ht))
  rw [Domain.without, result, hadds.keptAfter, List.filter_append,
    List.filter_eq_self.mpr (by simpa using hkept),
    List.filter_eq_nil_iff.mpr (by simpa using hnew), List.append_nil]

omit hadds hr in
theorem removable (a : SumType) :
    Removable (a.variants ++ addedTo p.sumEdits a.tag) (removedFrom q.sumEdits a.tag) := by
  rw [removable_iff_count_le]
  intro t
  rw [(hq.removedFrom_perm a.tag).count_eq, ← variantCount_eq_count]
  unfold variantCount
  rw [List.countP_append]
  exact Nat.le_add_left _ _

theorem fits (hp : p.Fits base) : q.Fits (p.result base) where
  excluded tag hx := by
    rw [result, List.map_append, List.mem_append]
    exact Or.inr (hadds.mem_tags_included.mp ((hq.excluded tag).mp hx))
  edits := by
    intro earlier e rest hsplit
    have hmem : ∀ e' ∈ earlier ++ e :: rest, e' ∈ q.sumEdits := fun e' he' => hsplit ▸ he'
    -- the edit of `p` for the same sum found the sum in the base
    obtain ⟨e', he', htag, -⟩ := hq.exists_edit (hmem e (by simp))
    obtain ⟨done, more, hp'⟩ := List.append_of_mem he'
    obtain ⟨a, ha, ha', -⟩ := hp.edits done e' more hp'
    have hae : e.tag = a.tag := htag.symm.trans ha'.symm
    refine ⟨a.edited p.sumEdits, ?_, hae.symm, ?_⟩
    · rw [hq.without_result hadds hr]
      exact List.mem_map.mpr ⟨.sum a, List.mem_of_mem_filter ha, rfl⟩
    · have hall := hq.removable a
      rw [hsplit, removedFrom_append, removedFrom_cons_of_tag_eq hae, ← List.append_assoc,
        removable_append_iff, removable_append_iff] at hall
      have hearlier : ∀ e' ∈ earlier, e'.added = [] := fun e' he' =>
        hq.added_eq_nil (hmem e' (List.mem_append_left _ he'))
      rw [SumType.variantsAfter_of_removals hearlier, hadds.variants_edited]
      exact hall.1.2

theorem edited_edited {t : UserType} (ht : t ∈ base.userTypes) :
    (t.edited p.sumEdits).edited q.sumEdits = t := by
  cases t with
  | product q => rfl
  | sum a =>
    have hmem : UserType.sum (a.edited p.sumEdits) ∈ (p.result base).userTypes := by
      rw [result, hadds.keptAfter]
      exact List.mem_append_left _ (List.mem_map_of_mem (f := UserType.edited p.sumEdits) ht)
    have hn := Domain.nodup_variants_of_mem hr hmem
    rw [hadds.variants_edited] at hn
    have hvariants : (a.edited p.sumEdits).variantsAfter q.sumEdits = a.variants := by
      rw [SumType.variantsAfter_of_removals fun e he => hq.added_eq_nil he, hadds.variants_edited]
      refine removeVariants_of_back hn fun tag => ?_
      rw [← (hq.removedFrom_perm a.tag).mem_iff]
      rfl
    exact congrArg (fun vs => UserType.sum { a with variants := vs }) hvariants

end Valid

end Undoes

/-- **Additions can be undone.** Let a permutation of a valid base leave nothing out, remove no
variant and include no builtin, and let what it gives be valid. Then the permutation that takes out
the types that it includes and the variants that it adds can be applied to what it gives, and gives
the types of the base back, in their order, with their origins and marks. -/
theorem additions_undone {p q : Permutation} {domains domains' : DomainMap} {base r : Domain}
    (hbase : domains.get? p.base = some base) (hb : base.errors = [])
    (hp : p.apply domains = .ok r) (hr : r.errors = []) (hadds : p.OnlyAdds) (hq : q.Undoes p)
    (hbase' : domains'.get? q.base = some r) :
    ∃ d, q.apply domains' = .ok d ∧ d.userTypes = base.userTypes := by
  obtain rfl := eq_result_of_apply hb hbase hp
  have hfits : p.Fits base := by
    rcases fits_or_objection p base with h | ⟨e, h⟩
    · exact h
    · rw [apply_of_get? hbase, applyTo_of_objection hb h] at hp
      cases hp
  refine ⟨q.result (p.result base), ?_, ?_⟩
  · rw [apply_of_get? hbase', applyTo_of_fits hr (hq.fits hadds hr hfits)]
  · calc (q.result (p.result base)).userTypes
        = ((p.result base).without q.excluded.names).map (UserType.edited q.sumEdits) := by
          rw [result, hq.included]
          exact List.append_nil _
      _ = (base.userTypes.map (UserType.edited p.sumEdits)).map (UserType.edited q.sumEdits) := by
          rw [hq.without_result hadds hr]
      _ = base.userTypes := by
          rw [List.map_map, map_eq_self_iff]
          exact fun t ht => hq.edited_edited hadds hr ht

/-- Two edits of one sum, included types on which added variants depend, and a mark in the base. -/
theorem additions_undone_by_version :
    let shape (variants : List ProductType) : UserType := .sum { tag := "shape", variants }
    let dot : ProductType := { tag := "dot", removed := true }
    let disc : ProductType :=
      { tag := "disc", fields := [{ name := "center", type := { typeName := "point" } }] }
    let base : Domain :=
      { tag := "v1", userTypes := [shape [dot, { tag := "box" }], .product { tag := "line" }] }
    let p : Permutation :=
      { tag := "v2", base := "v1",
        included := [.user (.product { tag := "point" }), .user (.sum { tag := "color" })],
        sumEdits := [{ tag := "shape", added := [disc] },
          { tag := "shape", added := [{ tag := "ring" }, { tag := "arc" }] }] }
    let r : Domain :=
      { tag := "v2",
        userTypes := [shape [dot, { tag := "box" }, disc, { tag := "ring" }, { tag := "arc" }],
          .product { tag := "line" }, .product { tag := "point" }, .sum { tag := "color" }] }
    let domains : DomainMap := (OrderedMap.empty.insert "v1" base).insert "v2" r
    base.errors = [] ∧ p.apply domains = .ok r ∧ r.errors = [] ∧ p.OnlyAdds ∧
      (p.undo "v3").Undoes p ∧ (p.undo "v3").excluded.names = ["point", "color"] ∧
      ∃ d, (p.undo "v3").apply domains = .ok d ∧ d.userTypes = base.userTypes := by
  intro shape dot disc base p r domains
  have hb : base.errors = [] := by decide
  have hp : p.apply domains = .ok r := by decide
  have hr : r.errors = [] := by decide
  have hadds : p.OnlyAdds := ⟨rfl, by decide, by decide⟩
  have hq : (p.undo "v3").Undoes p := p.undo_undoes "v3"
  have hbase : domains.get? p.base = some base := by decide
  have hbase' : domains.get? (p.undo "v3").base = some r := by decide
  exact ⟨hb, hp, hr, hadds, hq, by decide, additions_undone hbase hb hp hr hadds hq hbase'⟩

end Permutation

end VersionedTypes
