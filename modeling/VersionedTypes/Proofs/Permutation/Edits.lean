import VersionedTypes.Permutation.Application
import VersionedTypes.Proofs.Lists

/-!
# What sum edits do to variants

An edit takes variants out of a sum one after the other and then adds its own. Each removal takes
the first variant of its name that is left; it fails when none is left.

* `removeVariants`, `Removable`: what the removals leave, and when they can be done in turn;
* `foldlM_removeVariant_of_removable`, `foldlM_removeVariant_of_missing`: the removals that stop at
  a failure;
* `SumEdit.variantsAfter`, `SumEdit.applyTo_of_removable`: one edit;
* **`SumType.variantsAfter`**: the edits that name a sum, one after the other;
* `UserType.edited`, `UserType.edited_append`: what edits make of a type;
* `EditsRemove`, `EditsAdd`, **`SumType.exists_variantsAfter_eq`**: what edits leave of a sum, and
  what is new;
* `SumType.exists_variantsAfter_eq_append`: the same for any sum and any edits, less exactly;
* `SumEdit.exists_of_applyWithin`, `SumEdit.applyWithin_of_removable` and their companions: one edit
  among the types of a domain.
-/

namespace VersionedTypes

variable {variants : List ProductType} {names earlier rest : List String} {name : String}

/-! ## Removals -/

/-- The variants that are left when the named ones are taken out one after the other, each time the
first one of the name. A name that no variant has is passed over. -/
def removeVariants (variants : List ProductType) (names : List String) : List ProductType :=
  names.foldl (fun left name => left.eraseP (·.tag == name)) variants

/-- Every name, taken in order, is that of a variant that is still left. -/
def Removable (variants : List ProductType) (names : List String) : Prop :=
  InTurn (fun earlier name => name ∈ (removeVariants variants earlier).map ProductType.tag) names

@[simp] theorem removeVariants_nil : removeVariants variants [] = variants := rfl

theorem removeVariants_append :
    removeVariants variants (names ++ rest) = removeVariants (removeVariants variants names) rest :=
  List.foldl_append

theorem removeVariants_concat :
    removeVariants variants (names ++ [name]) =
      (removeVariants variants names).eraseP (·.tag == name) := by
  rw [removeVariants_append]
  rfl

theorem mem_of_mem_removeVariants {v : ProductType} (h : v ∈ removeVariants variants names) :
    v ∈ variants := by
  induction names using List.reverseRecOn with
  | nil => exact h
  | append_singleton names name ih =>
    rw [removeVariants_concat] at h
    exact ih (List.mem_of_mem_eraseP h)

theorem removeVariant_of_mem (h : name ∈ variants.map ProductType.tag) :
    removeVariant variants name = .ok (variants.eraseP (·.tag == name)) := by
  have hany : variants.any (·.tag == name) = true := by simpa using h
  rw [removeVariant, if_pos hany]

theorem removeVariant_of_not_mem (h : name ∉ variants.map ProductType.tag) :
    removeVariant variants name = .error name := by
  have hany : ¬ variants.any (·.tag == name) = true := by simpa using h
  rw [removeVariant, if_neg hany]

theorem removeVariant_step (earlier : List String) (name : String)
    (h : name ∈ (removeVariants variants earlier).map ProductType.tag) :
    removeVariant (removeVariants variants earlier) name =
      .ok (removeVariants variants (earlier ++ [name])) := by
  rw [removeVariant_of_mem h, removeVariants_concat]

theorem foldlM_removeVariant_of_removable (h : Removable variants names) :
    names.foldlM removeVariant variants = .ok (removeVariants variants names) :=
  foldlM_of_inTurn removeVariant_step h

theorem foldlM_removeVariant_of_missing (h : Removable variants earlier)
    (hn : name ∉ (removeVariants variants earlier).map ProductType.tag) :
    (earlier ++ name :: rest).foldlM removeVariant variants = .error name :=
  foldlM_of_first removeVariant_step h (removeVariant_of_not_mem hn)

theorem eraseP_append_of_disjoint {front back : List ProductType}
    (hn : (front.map ProductType.tag).Nodup) (h : ∀ v ∈ front, ∀ w ∈ back, v.tag ≠ w.tag) :
    (front ++ back).eraseP (·.tag == name) =
      front.filter (·.tag ≠ name) ++ back.eraseP (·.tag == name) := by
  rw [← eraseP_key_eq_filter hn]
  by_cases hfront : name ∈ front.map ProductType.tag
  · have hback : name ∉ back.map ProductType.tag := by
      obtain ⟨v, hv, rfl⟩ := List.mem_map.mp hfront
      intro hback
      obtain ⟨w, hw, e⟩ := List.mem_map.mp hback
      exact h v hv w hw e.symm
    rw [eraseP_key_append_of_mem hfront, eraseP_key_of_not_mem hback]
  · rw [eraseP_key_append_of_not_mem hfront, eraseP_key_of_not_mem hfront]

/-- Variants of distinct tags lose those that are named. What follows them, with other tags, is
worked through apart. -/
theorem removeVariants_append_of_disjoint {front back : List ProductType}
    (hn : (front.map ProductType.tag).Nodup) (h : ∀ v ∈ front, ∀ w ∈ back, v.tag ≠ w.tag) :
    removeVariants (front ++ back) names =
      front.filter (·.tag ∉ names) ++ removeVariants back names := by
  induction names using List.reverseRecOn with
  | nil => simp
  | append_singleton names name ih =>
    have hn' : ((front.filter (·.tag ∉ names)).map ProductType.tag).Nodup :=
      hn.sublist (List.filter_sublist.map _)
    have h' : ∀ v ∈ front.filter (·.tag ∉ names), ∀ w ∈ removeVariants back names,
        v.tag ≠ w.tag := fun v hv w hw =>
      h v (List.mem_of_mem_filter hv) w (mem_of_mem_removeVariants hw)
    rw [removeVariants_concat, removeVariants_concat, ih, eraseP_append_of_disjoint hn' h',
      List.filter_filter]
    congr 1
    refine List.filter_congr fun v _ => ?_
    simp [and_comm]

/-! ## One edit -/

/-- The variants after an edit: its removals, then its additions. -/
def SumEdit.variantsAfter (e : SumEdit) (variants : List ProductType) : List ProductType :=
  removeVariants variants e.removed ++ e.added

theorem SumEdit.applyTo_of_removable {e : SumEdit} {s : SumType}
    (h : Removable s.variants e.removed) :
    e.applyTo s = .ok { s with variants := e.variantsAfter s.variants } := by
  rw [applyTo, foldlM_removeVariant_of_removable h]
  rfl

theorem SumEdit.applyTo_of_missing {e : SumEdit} {s : SumType}
    (he : e.removed = earlier ++ name :: rest) (h : Removable s.variants earlier)
    (hn : name ∉ (removeVariants s.variants earlier).map ProductType.tag) :
    e.applyTo s = .error name := by
  rw [applyTo, he, foldlM_removeVariant_of_missing h hn]
  rfl

/-! ## Edits one after the other -/

/-- The variants of a sum after the edits that name it. -/
def SumType.variantsAfter (s : SumType) (es : List SumEdit) : List ProductType :=
  (es.filter (·.tag == s.tag)).foldl (fun variants e => e.variantsAfter variants) s.variants

/-- The sum after the edits that name it: nothing but its variants is changed. -/
def SumType.edited (es : List SumEdit) (s : SumType) : SumType :=
  { s with variants := s.variantsAfter es }

/-- The type after edits: products are never edited. -/
def UserType.edited (es : List SumEdit) : UserType → UserType
  | .product p => .product p
  | .sum s => .sum (s.edited es)

section Edited

variable {es es' : List SumEdit} {e : SumEdit} {s : SumType} {t : UserType}

@[simp] theorem UserType.tag_edited : (t.edited es).tag = t.tag := by
  cases t with
  | product p => rfl
  | sum s => rfl

@[simp] theorem SumType.variantsAfter_nil : s.variantsAfter [] = s.variants := rfl

theorem SumType.variantsAfter_concat :
    s.variantsAfter (es ++ [e]) =
      if e.tag = s.tag then e.variantsAfter (s.variantsAfter es) else s.variantsAfter es := by
  unfold SumType.variantsAfter
  rw [List.filter_append, List.foldl_append]
  by_cases h : e.tag = s.tag
  · simp [h]
  · simp [h]

theorem UserType.edited_nil : t.edited [] = t := by
  cases t with
  | product p => rfl
  | sum s => rfl

theorem SumType.variantsAfter_append :
    s.variantsAfter (es ++ es') = (s.edited es).variantsAfter es' := by
  unfold SumType.variantsAfter
  rw [List.filter_append, List.foldl_append]
  rfl

theorem UserType.edited_append : t.edited (es ++ es') = (t.edited es).edited es' := by
  cases t with
  | product p => rfl
  | sum s =>
    exact congrArg (fun vs => UserType.sum { s with variants := vs }) SumType.variantsAfter_append

theorem UserType.edited_of_tag_ne (h : t.tag ≠ e.tag) : t.edited [e] = t := by
  cases t with
  | product p => rfl
  | sum s =>
    have hs : ¬ e.tag = s.tag := fun h' => h h'.symm
    have hv : s.variantsAfter [e] = s.variants := by
      rw [← List.nil_append [e], SumType.variantsAfter_concat, if_neg hs, SumType.variantsAfter_nil]
    exact congrArg (fun vs => UserType.sum { s with variants := vs }) hv

theorem UserType.edited_of_tag_eq (h : s.tag = e.tag) :
    (UserType.sum s).edited [e] = .sum { s with variants := e.variantsAfter s.variants } := by
  have hv : s.variantsAfter [e] = e.variantsAfter s.variants := by
    rw [← List.nil_append [e], SumType.variantsAfter_concat, if_pos h.symm,
      SumType.variantsAfter_nil]
  exact congrArg (fun vs => UserType.sum { s with variants := vs }) hv

end Edited

/-! ## What is left of a sum, and what is new -/

/-- Some edit of the sum removes a variant of this tag. -/
def EditsRemove (es : List SumEdit) (sum variant : String) : Prop :=
  ∃ e ∈ es, e.tag = sum ∧ variant ∈ e.removed

/-- Some edit of the sum adds this variant. -/
def EditsAdd (es : List SumEdit) (sum : String) (v : ProductType) : Prop :=
  ∃ e ∈ es, e.tag = sum ∧ v ∈ e.added

instance (es : List SumEdit) (sum variant : String) : Decidable (EditsRemove es sum variant) := by
  unfold EditsRemove; infer_instance

instance (es : List SumEdit) (sum : String) (v : ProductType) : Decidable (EditsAdd es sum v) := by
  unfold EditsAdd; infer_instance

theorem editsRemove_concat {es : List SumEdit} {e : SumEdit} {sum variant : String} :
    EditsRemove (es ++ [e]) sum variant ↔
      EditsRemove es sum variant ∨ e.tag = sum ∧ variant ∈ e.removed := by
  simp [EditsRemove, or_and_right, exists_or]

theorem editsAdd_concat {es : List SumEdit} {e : SumEdit} {sum : String} {v : ProductType} :
    EditsAdd (es ++ [e]) sum v ↔ EditsAdd es sum v ∨ e.tag = sum ∧ v ∈ e.added := by
  simp [EditsAdd, or_and_right, exists_or]

/-- **What edits leave of a sum whose variants are told apart**, if they add none of the tags of its
own variants: those that no edit removes, in order, and behind them only variants that edits add. -/
theorem SumType.exists_variantsAfter_eq {s : SumType} {es : List SumEdit}
    (hn : (s.variants.map ProductType.tag).Nodup)
    (hnew : ∀ v, EditsAdd es s.tag v → v.tag ∉ s.variants.map ProductType.tag) :
    ∃ more,
      s.variantsAfter es = s.variants.filter (fun v => ¬ EditsRemove es s.tag v.tag) ++ more ∧
      ∀ v ∈ more, EditsAdd es s.tag v := by
  induction es using List.reverseRecOn with
  | nil => exact ⟨[], by simp [EditsRemove], by simp⟩
  | append_singleton es e ih =>
    obtain ⟨more, hmore, hadd⟩ := ih fun v hv => hnew v (editsAdd_concat.mpr (Or.inl hv))
    rw [SumType.variantsAfter_concat]
    by_cases ht : e.tag = s.tag
    · have hn' : ((s.variants.filter fun v => ¬ EditsRemove es s.tag v.tag).map
          ProductType.tag).Nodup := hn.sublist (List.filter_sublist.map _)
      have hdisjoint : ∀ v ∈ s.variants.filter (fun v => ¬ EditsRemove es s.tag v.tag),
          ∀ w ∈ more, v.tag ≠ w.tag := by
        intro v hv w hw e
        refine hnew w (editsAdd_concat.mpr (Or.inl (hadd w hw))) ?_
        exact e ▸ List.mem_map_of_mem (List.mem_of_mem_filter hv)
      refine ⟨removeVariants more e.removed ++ e.added, ?_, ?_⟩
      · rw [if_pos ht, SumEdit.variantsAfter, hmore,
          removeVariants_append_of_disjoint hn' hdisjoint, List.filter_filter, List.append_assoc]
        congr 1
        refine List.filter_congr fun v _ => ?_
        simp [editsRemove_concat, ht, and_comm]
      · intro v hv
        rw [editsAdd_concat]
        rcases List.mem_append.mp hv with hv | hv
        · exact Or.inl (hadd v (mem_of_mem_removeVariants hv))
        · exact Or.inr ⟨ht, hv⟩
    · refine ⟨more, ?_, fun v hv => editsAdd_concat.mpr (Or.inl (hadd v hv))⟩
      simp [ht, hmore, editsRemove_concat]

theorem exists_removeVariants_append (front back : List ProductType) (names : List String) :
    ∃ front' back', removeVariants (front ++ back) names = front' ++ back' ∧
      front'.Sublist front ∧ back'.Sublist back := by
  induction names using List.reverseRecOn with
  | nil => exact ⟨front, back, rfl, .refl _, .refl _⟩
  | append_singleton names name ih =>
    obtain ⟨front', back', h, hfront, hback⟩ := ih
    rw [removeVariants_concat, h, List.eraseP_append]
    split
    · exact ⟨_, back', rfl, List.eraseP_sublist.trans hfront, hback⟩
    · exact ⟨front', _, rfl, hfront, List.eraseP_sublist.trans hback⟩

/-- **What edits leave of a sum, and what they add**: some of its variants, in order, and behind
them variants that edits add. -/
theorem SumType.exists_variantsAfter_eq_append (s : SumType) (es : List SumEdit) :
    ∃ kept added, s.variantsAfter es = kept ++ added ∧ kept.Sublist s.variants ∧
      ∀ v ∈ added, EditsAdd es s.tag v := by
  induction es using List.reverseRecOn with
  | nil => exact ⟨s.variants, [], by simp, .refl _, nofun⟩
  | append_singleton es e ih =>
    obtain ⟨kept, added, h, hkept, hadded⟩ := ih
    rw [SumType.variantsAfter_concat]
    split
    · next ht =>
      obtain ⟨kept', added', h', hkept', hadded'⟩ :=
        exists_removeVariants_append kept added e.removed
      refine ⟨kept', added' ++ e.added, ?_, hkept'.trans hkept, fun v hv => ?_⟩
      · rw [SumEdit.variantsAfter, h, h', List.append_assoc]
      · rw [editsAdd_concat]
        rcases List.mem_append.mp hv with hv | hv
        · exact Or.inl (hadded v (hadded'.subset hv))
        · exact Or.inr ⟨ht, hv⟩
    · exact ⟨kept, added, h, hkept, fun v hv => editsAdd_concat.mpr (Or.inl (hadded v hv))⟩

/-! ## One edit among the types of a domain -/

namespace SumEdit

variable {domain : String} {e : SumEdit} {s s' : SumType} {q : ProductType} {t : UserType}
  {types front back : List UserType}

theorem applyWithin_of_tag_ne (h : t.tag ≠ e.tag) :
    e.applyWithin domain (t :: types) = (e.applyWithin domain types).map (t :: ·) := by
  rw [applyWithin.eq_def]
  exact if_neg h

theorem applyWithin_product_cons (h : q.tag = e.tag) :
    e.applyWithin domain (.product q :: types) = .error (.notASum domain e.tag .product) := by
  rw [applyWithin.eq_def]
  exact if_pos h

theorem applyWithin_sum_cons (h : s.tag = e.tag) :
    e.applyWithin domain (.sum s :: types) =
      match e.applyTo s with
      | .ok s' => .ok (.sum s' :: types)
      | .error name => .error (.nonexistentVariant domain e.tag name) := by
  rw [applyWithin.eq_def]
  exact if_pos h

theorem applyWithin_append (h : ∀ t ∈ front, t.tag ≠ e.tag) :
    e.applyWithin domain (front ++ types) = (e.applyWithin domain types).map (front ++ ·) := by
  induction front with
  | nil => cases h' : e.applyWithin domain types <;> simp [Except.map, h']
  | cons t front ih =>
    obtain ⟨ht, hfront⟩ := List.forall_mem_cons.mp h
    rw [List.cons_append, applyWithin_of_tag_ne ht, ih hfront]
    cases e.applyWithin domain types <;> rfl

/-- An edit that can be done finds a sum in front of all other types of the tag. -/
theorem exists_of_applyWithin {types' : List UserType}
    (h : e.applyWithin domain types = .ok types') :
    ∃ front s s' back, types = front ++ .sum s :: back ∧ types' = front ++ .sum s' :: back ∧
      s.tag = e.tag ∧ (∀ t ∈ front, t.tag ≠ e.tag) ∧ e.applyTo s = .ok s' := by
  induction types generalizing types' with
  | nil => cases h
  | cons t ts ih =>
    by_cases ht : t.tag = e.tag
    · cases t with
      | product q =>
        rw [applyWithin_product_cons ht] at h
        cases h
      | sum s =>
        rw [applyWithin_sum_cons ht] at h
        cases hs : e.applyTo s with
        | error name => rw [hs] at h; cases h
        | ok s' =>
          rw [hs] at h
          cases h
          exact ⟨[], s, s', ts, rfl, rfl, ht, nofun, hs⟩
    · rw [applyWithin_of_tag_ne ht] at h
      obtain ⟨ts', hts, rfl⟩ := map_eq_ok_iff.mp h
      obtain ⟨front, s, s', back, rfl, rfl, hs, hfront, happly⟩ := ih hts
      exact ⟨t :: front, s, s', back, rfl, rfl, hs, List.forall_mem_cons.mpr ⟨ht, hfront⟩, happly⟩

theorem applyWithin_of_not_mem (h : e.tag ∉ types.map UserType.tag) :
    e.applyWithin domain types = .error (.nonexistentSum domain e.tag) := by
  have hne : ∀ t ∈ types, t.tag ≠ e.tag := fun t ht he => h (he ▸ List.mem_map_of_mem ht)
  have happend : e.applyWithin domain (types ++ []) =
      (e.applyWithin domain []).map (types ++ ·) := applyWithin_append hne
  rwa [List.append_nil] at happend

section Nodup

variable (hn : (types.map UserType.tag).Nodup)

include hn

theorem applyWithin_of_product (hq : .product q ∈ types) (ht : q.tag = e.tag) :
    e.applyWithin domain types = .error (.notASum domain e.tag .product) := by
  obtain ⟨front, back, rfl, hfront, -⟩ := exists_split_of_mem_key hn hq
  rw [show (UserType.product q).tag = e.tag from ht] at hfront
  rw [applyWithin_append hfront, applyWithin_product_cons ht]
  rfl

theorem applyWithin_of_missing (hs : .sum s ∈ types) (ht : s.tag = e.tag)
    (he : e.applyTo s = .error name) :
    e.applyWithin domain types = .error (.nonexistentVariant domain e.tag name) := by
  obtain ⟨front, back, rfl, hfront, -⟩ := exists_split_of_mem_key hn hs
  rw [show (UserType.sum s).tag = e.tag from ht] at hfront
  rw [applyWithin_append hfront, applyWithin_sum_cons ht, he]
  rfl

theorem applyWithin_of_removable (hs : .sum s ∈ types) (ht : s.tag = e.tag)
    (hr : Removable s.variants e.removed) :
    e.applyWithin domain types = .ok (types.map (UserType.edited [e])) := by
  obtain ⟨front, back, rfl, hfront, hback⟩ := exists_split_of_mem_key hn hs
  rw [show (UserType.sum s).tag = e.tag from ht] at hfront hback
  have hunchanged : ∀ {ts : List UserType}, (∀ u ∈ ts, u.tag ≠ e.tag) →
      ts.map (UserType.edited [e]) = ts := fun h =>
    (List.map_congr_left fun u hu => UserType.edited_of_tag_ne (h u hu)).trans (List.map_id' _)
  rw [applyWithin_append hfront, applyWithin_sum_cons ht, applyTo_of_removable hr,
    List.map_append, List.map_cons, hunchanged hfront, hunchanged hback,
    UserType.edited_of_tag_eq ht]
  rfl

end Nodup

end SumEdit

end VersionedTypes
