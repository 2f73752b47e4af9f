import VersionedTypes.Proofs.Application
import VersionedTypes.Proofs.Permutation.Edits

/-!
# What a permutation means

On a valid base a permutation can be described type by type. Every excluded tag has to be declared
by the base, and every edit has to name a sum that is kept, with variants to remove that are there
when their turn comes. Then the kept types follow in order, each sum after the edits that name it,
and the included types behind them. Otherwise the first clause that does not fit is the mistake.

* `Domain.without`, `Permutation.result`: the types that are kept, and the permuted domain;
* `Domain.DeclaresOnce`, `Permutation.excludeType_step`: what can be excluded, on any base;
* `Permutation.EditFits`, `Permutation.Fits`: when every clause fits;
* `Permutation.EditObjection`, `Permutation.Objection`: the first clause that does not fit, with the
  mistake;
* `Permutation.fits_or_objection`: one or the other;
* `Permutation.applyTo_of_fits`, `Permutation.applyTo_of_objection`: what the application gives;
* `Permutation.eq_result_of_applyTo`, `Permutation.eq_result_of_apply`: nothing but the result is
  ever given;
* `Permutation.mem_userTypes_result`: where the types of the result come from;
* **`Permutation.apply_meaning`**: the application is what the description says.
-/

namespace VersionedTypes

theorem Builtin.ofTag?_eq_none_iff {tag : String} : ofTag? tag = none ↔ tag ∉ tags :=
  find?_key_eq_none_iff

theorem Builtin.isSome_ofTag?_iff {tag : String} : (ofTag? tag).isSome = true ↔ tag ∈ tags := by
  rw [Option.isSome_iff_ne_none, ne_eq, ofTag?_eq_none_iff, not_not]

/-- The declared types whose tag is not among `tags`. -/
def Domain.without (d : Domain) (tags : List String) : List UserType :=
  d.userTypes.filter fun t => t.tag ∉ tags

/-- One type is declared under the tag, and no builtin has it. -/
def Domain.DeclaresOnce (d : Domain) (tag : String) : Prop :=
  tag ∉ Builtin.tags ∧ d.userTypes.countP (·.tag == tag) = 1

namespace Permutation

/-! ## The description -/

section Description

variable (p : Permutation) (base : Domain)

/-- The types that are not excluded, after the edits `es`. -/
def keptAfter (es : List SumEdit) : List UserType :=
  (base.without p.excluded.names).map (UserType.edited es)

/-- What the permutation makes of the base: the kept types after the edits, then the included types
but for the builtins. -/
def result : Domain where
  tag := p.tag
  userTypes := p.keptAfter base p.sumEdits ++ p.included.filterMap SchemaType.user?
  origin := p.origin

/-- The edit names a sum that is kept, and the variants to be removed are there when their turn
comes, after the edits `earlier`. -/
def EditFits (earlier : List SumEdit) (e : SumEdit) : Prop :=
  ∃ s, .sum s ∈ base.without p.excluded.names ∧ s.tag = e.tag ∧
    Removable (s.variantsAfter earlier) e.removed

/-- Every clause fits. -/
structure Fits : Prop where
  excluded : ∀ tag ∈ p.excluded.names, tag ∈ base.userTypes.map UserType.tag
  edits : InTurn (p.EditFits base) p.sumEdits

/-- Why an edit does not fit after the edits `earlier`. -/
inductive EditObjection (earlier : List SumEdit) (e : SumEdit) : PermutationProblem → Prop
  | builtin (h : e.tag ∈ Builtin.tags) : EditObjection earlier e (.notASum p.tag e.tag .builtin)
  | nonexistent (hb : e.tag ∉ Builtin.tags)
      (h : e.tag ∉ (base.without p.excluded.names).map UserType.tag) :
    EditObjection earlier e (.nonexistentSum p.tag e.tag)
  | product {q : ProductType} (hq : .product q ∈ base.without p.excluded.names)
      (ht : q.tag = e.tag) :
    EditObjection earlier e (.notASum p.tag e.tag .product)
  /-- `done` are the removals in front of the one that fails. -/
  | variant {s : SumType} {done rest : List String} {name : String}
      (hs : .sum s ∈ base.without p.excluded.names) (ht : s.tag = e.tag)
      (he : e.removed = done ++ name :: rest)
      (hd : Removable (s.variantsAfter earlier) done)
      (hn : name ∉ (removeVariants (s.variantsAfter earlier) done).map ProductType.tag) :
    EditObjection earlier e (.nonexistentVariant p.tag e.tag name)

/-- **The mistake of the first clause that does not fit**: exclusions come first, in order, then the
edits. -/
inductive Objection : PermutationError → Prop
  | builtinType {done rest : List String} {tag : String}
      (hx : p.excluded.names = done ++ tag :: rest)
      (hd : ∀ t ∈ done, t ∈ base.userTypes.map UserType.tag) (ht : tag ∈ Builtin.tags) :
    Objection ⟨.builtinType p.tag tag, p.origin⟩
  | nonexistentType {done rest : List String} {tag : String}
      (hx : p.excluded.names = done ++ tag :: rest)
      (hd : ∀ t ∈ done, t ∈ base.userTypes.map UserType.tag) (hb : tag ∉ Builtin.tags)
      (ht : tag ∉ base.userTypes.map UserType.tag) :
    Objection ⟨.nonexistentType p.tag tag, p.origin⟩
  | edit {done rest : List SumEdit} {e : SumEdit} {problem : PermutationProblem}
      (hx : ∀ tag ∈ p.excluded.names, tag ∈ base.userTypes.map UserType.tag)
      (he : p.sumEdits = done ++ e :: rest) (hd : InTurn (p.EditFits base) done)
      (h : p.EditObjection base done e problem) :
    Objection ⟨problem, e.origin⟩

end Description

variable {p : Permutation} {base d : Domain} {types : List UserType} {tag : String}
  {done names : List String} {es : List SumEdit} {e : SumEdit}

/-! ## Exclusions -/

theorem excludeType_of_builtin (h : tag ∈ Builtin.tags) :
    p.excludeType base types tag = .error (.illegal ⟨.builtinType p.tag tag, p.origin⟩) := by
  rw [excludeType, if_pos (Builtin.isSome_ofTag?_iff.mpr h)]

theorem excludeType_of_not_mem (hb : tag ∉ Builtin.tags) (h : tag ∉ types.map UserType.tag) :
    p.excludeType base types tag = .error (.illegal ⟨.nonexistentType p.tag tag, p.origin⟩) := by
  rw [excludeType, if_neg (mt Builtin.isSome_ofTag?_iff.mp hb), countP_key_eq_zero_iff.mpr h]
  rfl

theorem excludeType_of_unique (hb : tag ∉ Builtin.tags) (h : types.countP (·.tag == tag) = 1) :
    p.excludeType base types tag = .ok (types.filter (·.tag ≠ tag)) := by
  rw [excludeType, if_neg (mt Builtin.isSome_ofTag?_iff.mp hb), h,
    ← eraseP_key_of_countP_le (Nat.le_of_eq h)]
  rfl

theorem excludeType_of_ambiguous (hb : tag ∉ Builtin.tags)
    (h : 2 ≤ types.countP (·.tag == tag)) :
    p.excludeType base types tag =
      .error (.fault (.ambiguousTag tag (types.countP (·.tag == tag)) base.tag p.origin)) := by
  rw [excludeType, if_neg (mt Builtin.isSome_ofTag?_iff.mp hb)]
  split
  · omega
  · omega
  · rfl

theorem without_nil : base.without [] = base.userTypes := by
  unfold Domain.without
  simp

theorem mem_tags_without :
    tag ∈ (base.without done).map UserType.tag ↔
      tag ∈ base.userTypes.map UserType.tag ∧ tag ∉ done := by
  simp only [Domain.without, List.mem_map, List.mem_filter, decide_eq_true_eq]
  constructor
  · rintro ⟨t, ⟨ht, hd⟩, rfl⟩
    exact ⟨⟨t, ht, rfl⟩, hd⟩
  · rintro ⟨⟨t, ht, rfl⟩, hd⟩
    exact ⟨t, ⟨ht, hd⟩, rfl⟩

theorem without_concat :
    (base.without done).filter (·.tag ≠ tag) = base.without (done ++ [tag]) := by
  unfold Domain.without
  rw [List.filter_filter]
  refine List.filter_congr fun t _ => ?_
  simp [and_comm]

theorem countP_without (h : tag ∉ done) :
    (base.without done).countP (·.tag == tag) = base.userTypes.countP (·.tag == tag) := by
  unfold Domain.without
  rw [List.countP_filter]
  refine List.countP_congr fun t _ => ?_
  simp only [Bool.and_eq_true, beq_iff_eq, decide_eq_true_eq, and_iff_left_iff_imp]
  rintro rfl
  exact h

theorem excludeType_step (done : List String) (tag : String)
    (h : tag ∉ done ∧ base.DeclaresOnce tag) :
    p.excludeType base (base.without done) tag = .ok (base.without (done ++ [tag])) := by
  obtain ⟨hnew, hb, hone⟩ := h
  rw [excludeType_of_unique hb (by rw [countP_without hnew, hone]), without_concat]

theorem inTurn_exclusions (hn : done.Nodup) (h : ∀ tag ∈ done, base.DeclaresOnce tag) :
    InTurn (fun earlier tag => tag ∉ earlier ∧ base.DeclaresOnce tag) done := by
  rintro earlier tag rest rfl
  have hd := (List.nodup_append.mp hn).2.2 tag
  exact ⟨fun ht => hd ht tag List.mem_cons_self rfl, h tag (by simp)⟩

section Valid

variable (hb : base.errors = [])

include hb

theorem nodup_tags_without (done : List String) : ((base.without done).map UserType.tag).Nodup :=
  (Domain.nodup_tags_of_errors_eq_nil hb).sublist (List.filter_sublist.map _)

theorem declaresOnce_of_mem (h : tag ∈ base.userTypes.map UserType.tag) :
    base.DeclaresOnce tag := by
  refine ⟨?_, by rw [countP_key (Domain.nodup_tags_of_errors_eq_nil hb), if_pos h]⟩
  obtain ⟨t, ht, rfl⟩ := List.mem_map.mp h
  exact Domain.not_builtin_of_mem hb ht

end Valid

/-! ## Edits -/

theorem foldlM_clauses :
    p.clauses.foldlM (p.applyClause base) base.userTypes =
      (p.excluded.names.foldlM (p.excludeType base) (base.without [])).bind
        (p.sumEdits.foldlM p.editType) := by
  rw [clauses, List.foldlM_append, without_nil]
  simp only [List.foldlM_map]
  rfl

theorem editType_of_builtin (h : e.tag ∈ Builtin.tags) :
    p.editType types e = .error (.illegal ⟨.notASum p.tag e.tag .builtin, e.origin⟩) := by
  obtain ⟨b, hb⟩ := Option.isSome_iff_exists.mp (Builtin.isSome_ofTag?_iff.mpr h)
  rw [editType, hb]

theorem editType_of_not_builtin (h : e.tag ∉ Builtin.tags) :
    p.editType types e =
      (e.applyWithin p.tag types).mapError fun problem => .illegal ⟨problem, e.origin⟩ := by
  rw [editType, Builtin.ofTag?_eq_none_iff.mpr h]

theorem editType_append_sum {s : SumType} {front back : List UserType} (hb : e.tag ∉ Builtin.tags)
    (ht : s.tag = e.tag) (hfront : ∀ t ∈ front, t.tag ≠ e.tag) :
    p.editType (front ++ .sum s :: back) e =
      ((e.applyTo s).map fun s' => front ++ .sum s' :: back).mapError fun name =>
        .illegal ⟨.nonexistentVariant p.tag e.tag name, e.origin⟩ := by
  rw [editType_of_not_builtin hb, SumEdit.applyWithin_append hfront,
    SumEdit.applyWithin_sum_cons ht]
  cases e.applyTo s <;> rfl

theorem tags_keptAfter (es : List SumEdit) :
    (p.keptAfter base es).map UserType.tag =
      (base.without p.excluded.names).map UserType.tag := by
  rw [keptAfter, List.map_map]
  exact List.map_congr_left fun t _ => UserType.tag_edited

theorem mem_filterMap_user? {t : UserType} :
    t ∈ p.included.filterMap SchemaType.user? ↔ .user t ∈ p.included := by
  rw [List.mem_filterMap]
  constructor
  · rintro ⟨_ | u, hu, ⟨⟩⟩
    exact hu
  · exact fun h => ⟨_, h, rfl⟩

theorem mem_userTypes_result {t : UserType} :
    t ∈ (p.result base).userTypes ↔
      (∃ u ∈ base.without p.excluded.names, u.edited p.sumEdits = t) ∨ .user t ∈ p.included := by
  rw [result, List.mem_append, mem_filterMap_user?, keptAfter, List.mem_map]

theorem keptAfter_concat :
    (p.keptAfter base es).map (UserType.edited [e]) = p.keptAfter base (es ++ [e]) := by
  rw [keptAfter, List.map_map]
  exact List.map_congr_left fun t _ => UserType.edited_append.symm

section Valid

variable (hb : base.errors = [])

include hb

theorem nodup_tags_keptAfter (es : List SumEdit) :
    ((p.keptAfter base es).map UserType.tag).Nodup := by
  rw [tags_keptAfter]
  exact nodup_tags_without hb _

theorem not_builtin_of_mem_without {t : UserType} (ht : t ∈ base.without p.excluded.names) :
    t.tag ∉ Builtin.tags :=
  Domain.not_builtin_of_mem hb (List.mem_of_mem_filter ht)

/-- One more edit that fits. -/
theorem editType_step (es : List SumEdit) (e : SumEdit) (h : p.EditFits base es e) :
    p.editType (p.keptAfter base es) e = .ok (p.keptAfter base (es ++ [e])) := by
  obtain ⟨s, hs, ht, hr⟩ := h
  have hnb : e.tag ∉ Builtin.tags := ht ▸ not_builtin_of_mem_without hb hs
  have hs' : .sum (s.edited es) ∈ p.keptAfter base es := List.mem_map_of_mem hs
  rw [editType_of_not_builtin hnb,
    SumEdit.applyWithin_of_removable (nodup_tags_keptAfter hb es) hs' ht hr, keptAfter_concat]
  rfl

theorem editType_of_objection {problem : PermutationProblem}
    (h : p.EditObjection base es e problem) :
    p.editType (p.keptAfter base es) e = .error (.illegal ⟨problem, e.origin⟩) := by
  have hn := nodup_tags_keptAfter (p := p) hb es
  have hproblem : e.tag ∉ Builtin.tags →
      e.applyWithin p.tag (p.keptAfter base es) = .error problem →
        p.editType (p.keptAfter base es) e = .error (.illegal ⟨problem, e.origin⟩) := by
    intro hnb he
    rw [editType_of_not_builtin hnb, he]
    rfl
  cases h with
  | builtin h => exact editType_of_builtin h
  | nonexistent hb h =>
    rw [← tags_keptAfter es] at h
    exact hproblem hb (SumEdit.applyWithin_of_not_mem h)
  | product hq ht =>
    have hq' := List.mem_map_of_mem (f := UserType.edited es) hq
    exact hproblem (ht ▸ not_builtin_of_mem_without hb hq)
      (SumEdit.applyWithin_of_product hn hq' ht)
  | variant hs ht he hd hname =>
    have hs' := List.mem_map_of_mem (f := UserType.edited es) hs
    exact hproblem (ht ▸ not_builtin_of_mem_without hb hs)
      (SumEdit.applyWithin_of_missing hn hs' ht (SumEdit.applyTo_of_missing he hd hname))

end Valid

/-! ## All clauses -/

theorem foldlM_exclusions (h : ∀ tag ∈ p.excluded.names, base.DeclaresOnce tag) :
    p.excluded.names.foldlM (p.excludeType base) (base.without []) =
      .ok (p.keptAfter base []) := by
  have hkept : p.keptAfter base [] = base.without p.excluded.names := by
    have hid : UserType.edited [] = id := funext fun t => UserType.edited_nil
    rw [keptAfter, hid, List.map_id]
  rw [foldlM_of_inTurn excludeType_step (inTurn_exclusions p.excluded.nodup h), hkept]

theorem applyTo_of_exclusion {done rest : List String} {failure : Failure}
    (hx : p.excluded.names = done ++ tag :: rest) (hd : ∀ t ∈ done, base.DeclaresOnce t)
    (he : p.excludeType base (base.without done) tag = .error failure) :
    p.applyTo base = .error failure := by
  have hn : done.Nodup := (List.nodup_append.mp (hx ▸ p.excluded.nodup)).1
  rw [applyTo, foldlM_clauses, hx,
    foldlM_of_first excludeType_step (inTurn_exclusions hn hd) he]
  rfl

section Valid

variable (hb : base.errors = [])

include hb

theorem foldlM_exclusions_of_valid
    (h : ∀ tag ∈ p.excluded.names, tag ∈ base.userTypes.map UserType.tag) :
    p.excluded.names.foldlM (p.excludeType base) (base.without []) =
      .ok (p.keptAfter base []) :=
  foldlM_exclusions fun tag ht => declaresOnce_of_mem hb (h tag ht)

/-- **If every clause fits**, the application gives the result. -/
theorem applyTo_of_fits (h : p.Fits base) : p.applyTo base = .ok (p.result base) := by
  rw [applyTo, foldlM_clauses, foldlM_exclusions_of_valid hb h.excluded]
  change Except.map _ (p.sumEdits.foldlM p.editType _) = _
  rw [foldlM_of_inTurn (editType_step hb) h.edits]
  rfl

/-- **The first clause that does not fit** is the mistake. -/
theorem applyTo_of_objection {e : PermutationError} (h : p.Objection base e) :
    p.applyTo base = .error (.illegal e) := by
  cases h with
  | builtinType hx hd ht =>
    exact applyTo_of_exclusion hx (fun t ht => declaresOnce_of_mem hb (hd t ht))
      (excludeType_of_builtin ht)
  | nonexistentType hx hd hnb ht =>
    exact applyTo_of_exclusion hx (fun t ht => declaresOnce_of_mem hb (hd t ht))
      (excludeType_of_not_mem hnb fun h => ht (mem_tags_without.mp h).1)
  | edit hx he hd h =>
    rw [applyTo, foldlM_clauses, foldlM_exclusions_of_valid hb hx, he]
    change Except.map _ (List.foldlM p.editType _ _) = _
    rw [foldlM_of_first (editType_step hb) hd (editType_of_objection hb h)]
    rfl

end Valid

/-! ## One or the other -/

/-- An edit that does not fit meets an objection. -/
theorem exists_editObjection (h : ¬ p.EditFits base es e) :
    ∃ problem, p.EditObjection base es e problem := by
  by_cases hb : e.tag ∈ Builtin.tags
  · exact ⟨_, .builtin hb⟩
  by_cases ht : e.tag ∈ (base.without p.excluded.names).map UserType.tag
  · obtain ⟨t, hmem, htag⟩ := List.mem_map.mp ht
    cases t with
    | product q => exact ⟨_, .product hmem htag⟩
    | sum s =>
      rcases inTurn_or_first (fun earlier name => name ∈
        (removeVariants (s.variantsAfter es) earlier).map ProductType.tag) e.removed with
        hr | ⟨done, name, rest, he, hd, hn⟩
      · exact absurd ⟨s, hmem, htag, hr⟩ h
      · exact ⟨_, .variant hmem htag he hd hn⟩
  · exact ⟨_, .nonexistent hb ht⟩

/-- **Every clause fits, or a first one does not.** -/
theorem fits_or_objection (p : Permutation) (base : Domain) :
    p.Fits base ∨ ∃ e, p.Objection base e := by
  rcases inTurn_or_first (fun _ tag => tag ∈ base.userTypes.map UserType.tag) p.excluded.names with
    hx | ⟨done, tag, rest, hx, hd, ht⟩
  · have hx := inTurn_iff_forall.mp hx
    rcases inTurn_or_first (p.EditFits base) p.sumEdits with he | ⟨done, e, rest, he, hd, hn⟩
    · exact Or.inl ⟨hx, he⟩
    · obtain ⟨problem, h⟩ := exists_editObjection hn
      exact Or.inr ⟨_, .edit hx he hd h⟩
  · have hd := inTurn_iff_forall.mp hd
    by_cases hb : tag ∈ Builtin.tags
    · exact Or.inr ⟨_, .builtinType hx hd hb⟩
    · exact Or.inr ⟨_, .nonexistentType hx hd hb ht⟩

/-- A permutation of a valid base gives nothing but the result. -/
theorem eq_result_of_applyTo (hb : base.errors = []) (h : p.applyTo base = .ok d) :
    d = p.result base := by
  rcases fits_or_objection p base with hf | ⟨e, he⟩
  · rw [applyTo_of_fits hb hf] at h
    exact (Except.ok.inj h).symm
  · rw [applyTo_of_objection hb he] at h
    cases h

theorem eq_result_of_apply {domains : DomainMap} (hb : base.errors = [])
    (hbase : domains.get? p.base = some base) (h : p.apply domains = .ok d) :
    d = p.result base := by
  refine eq_result_of_applyTo hb ?_
  rw [← h, apply, hbase]

/-- **The meaning of a permutation.** If its base, where there is one, is valid, the application
gives a domain exactly if the base exists and every clause fits, and the domain is the kept types
with their edits and then the included types. It gives a mistake exactly if the base does not exist,
or a first clause does not fit, and then it is the mistake of that clause. No promise is broken. -/
theorem apply_meaning (p : Permutation) (domains : DomainMap)
    (hb : ∀ base, domains.get? p.base = some base → base.errors = []) :
    (∀ d, p.apply domains = .ok d ↔
      ∃ base, domains.get? p.base = some base ∧ p.Fits base ∧ d = p.result base) ∧
    (∀ e, p.apply domains = .error (.illegal e) ↔
      domains.get? p.base = none ∧ e = p.missingBase ∨
        ∃ base, domains.get? p.base = some base ∧ p.Objection base e) ∧
    ∀ f, p.apply domains ≠ .error (.fault f) := by
  unfold apply
  cases hbase : domains.get? p.base with
  | none => simp [eq_comm]
  | some base =>
    have hb := hb base hbase
    simp only [reduceCtorEq, false_and, false_or, Option.some.injEq, exists_eq_left']
    rcases fits_or_objection p base with h | ⟨e, h⟩
    · have hok := applyTo_of_fits hb h
      have hno : ∀ e, ¬ p.Objection base e := fun e he => by
        rw [applyTo_of_objection hb he] at hok
        cases hok
      rw [hok]
      refine ⟨fun d => ?_, fun e => ?_, nofun⟩
      · simp [h, eq_comm]
      · simp [hno]
    · have herr := applyTo_of_objection hb h
      have hno : ¬ p.Fits base := fun hf => by
        rw [applyTo_of_fits hb hf] at herr
        cases herr
      rw [herr]
      refine ⟨fun d => ?_, fun e' => ?_, nofun⟩
      · simp [hno]
      · constructor
        · rintro ⟨⟩
          exact h
        · intro he
          rw [← herr, applyTo_of_objection hb he]

/-- Two edits of one sum, the second of which removes what the first one adds. A single edit cannot
remove what it adds itself. -/
theorem meaning_of_edits :
    let lit : ProductType := { tag := "lit" }
    let mul : ProductType := { tag := "mul" }
    let base : Domain :=
      { tag := "v1",
        userTypes := [.product { tag := "point" },
          .sum { tag := "expr", variants := [{ tag := "add" }, lit] }] }
    let domains : DomainMap := OrderedMap.empty.insert "v1" base
    let p : Permutation :=
      { tag := "v2", base := "v1", excluded := NameSet.empty.insert "point",
        included := [.builtin .int, .user (.product { tag := "point", encoding := .positional })],
        sumEdits := [{ tag := "expr", removed := ["add"], added := [mul] },
          { tag := "expr", removed := ["mul"], added := [{ tag := "sub" }] }] }
    let q : Permutation :=
      { tag := "v2", base := "v1",
        sumEdits := [{ tag := "expr", removed := ["mul"], added := [mul] }] }
    p.Fits base ∧
      p.apply domains = .ok
        { tag := "v2",
          userTypes := [.sum { tag := "expr", variants := [lit, { tag := "sub" }] },
            .product { tag := "point", encoding := .positional }] } ∧
      q.Objection base ⟨.nonexistentVariant "v2" "expr" "mul", Origin.blank⟩ := by
  intro lit mul base domains p q
  have hb : ∀ b, domains.get? "v1" = some b → b.errors = [] := by
    rintro b ⟨⟩
    decide
  obtain ⟨hp, -, -⟩ := apply_meaning p domains hb
  obtain ⟨-, hq, -⟩ := apply_meaning q domains hb
  have hok : p.apply domains = .ok (p.result base) := by decide
  have herr : q.apply domains =
      .error (.illegal ⟨.nonexistentVariant "v2" "expr" "mul", Origin.blank⟩) := by
    decide
  obtain ⟨b, hbase, hfits, -⟩ := (hp _).mp hok
  cases hbase
  refine ⟨hfits, hok, ?_⟩
  rcases (hq _).mp herr with ⟨hnone, -⟩ | ⟨b, hbase, hobjection⟩
  · cases hnone
  · cases hbase
    exact hobjection

end Permutation

end VersionedTypes
