import VersionedTypes.Proofs.Permutation.Meaning

/-!
# Application on the full list of types

A permutation can be applied to one list that holds the builtins as well as the declared types. Each
clause then looks its tag up in the whole list, and at the end the builtins are left out again, also
those that are included, and the domain is made with the check that it declares none. The outcome is
that of the application to the declared types alone, whatever the base is.

* `fullList`: builtins and then declared types;
* `Permutation.excludeFrom`, `SumEdit.applyAmong`: the clauses on the full list;
* `Permutation.applyChecked`: the application with the final check;
* `Domain.ofTypes_map_user`, `filter_not_builtin`: without builtins a list passes the check;
* **`Permutation.applyChecked_eq`**: both applications agree.
-/

namespace VersionedTypes

/-- The builtins and then the given types. -/
def fullList (types : List UserType) : List SchemaType :=
  Builtin.all.map SchemaType.builtin ++ types.map SchemaType.user

/-! ## Clauses on the full list -/

/-- The types with `e` applied to the first one of its tag. -/
def SumEdit.applyAmong (domain : String) (e : SumEdit) :
    List SchemaType → Except PermutationProblem (List SchemaType)
  | [] => .error (.nonexistentSum domain e.tag)
  | t :: ts =>
    if t.tag = e.tag then
      match t with
      | .user (.sum s) =>
        match e.applyTo s with
        | .ok s' => .ok (.user (.sum s') :: ts)
        | .error variant => .error (.nonexistentVariant domain e.tag variant)
      | t => .error (.notASum domain e.tag t.kind)
    else (e.applyAmong domain ts).map (t :: ·)

namespace Permutation

variable (p : Permutation) (base : Domain)

/-- `types` without the one of the given tag, which has to be a declared one. That there are not
several of the tag is promised by the base. -/
def excludeFrom (types : List SchemaType) (tag : String) : Except Failure (List SchemaType) :=
  if (types.filter (·.tag == tag)).any (·.kind.isBuiltin) then
    .error (.illegal ⟨.builtinType p.tag tag, p.origin⟩)
  else
    match (types.filter (·.tag == tag)).length with
    | 0 => .error (.illegal ⟨.nonexistentType p.tag tag, p.origin⟩)
    | 1 => .ok (types.eraseP (·.tag == tag))
    | n => .error (.fault (.ambiguousTag tag n base.tag p.origin))

/-- `types` with a sum edited. -/
def editAmong (types : List SchemaType) (e : SumEdit) : Except Failure (List SchemaType) :=
  (e.applyAmong p.tag types).mapError fun problem => .illegal ⟨problem, e.origin⟩

/-- The domain that the permutation makes of `base`, with the check that no builtin is declared. -/
def applyChecked : Except Failure Domain := do
  let kept ← p.excluded.names.foldlM (p.excludeFrom base) base.types
  let edited ← p.sumEdits.foldlM p.editAmong kept
  (Domain.ofTypes p.tag ((edited ++ p.included).filter fun t => !t.kind.isBuiltin)
    p.origin).mapError .fault

end Permutation

/-! ## The full list -/

section FullList

variable {types : List UserType} {tag domain : String} {e : SumEdit}

theorem filterMap_user?_map_user :
    (types.map SchemaType.user).filterMap SchemaType.user? = types := by
  rw [List.filterMap_map]
  exact List.filterMap_some

theorem filterMap_user?_fullList : (fullList types).filterMap SchemaType.user? = types := by
  have hbuiltins : (Builtin.all.map SchemaType.builtin).filterMap SchemaType.user? = [] := rfl
  rw [fullList, List.filterMap_append, hbuiltins, filterMap_user?_map_user, List.nil_append]

theorem builtins_tag_ne (h : tag ∉ Builtin.tags) :
    ∀ t ∈ Builtin.all.map SchemaType.builtin, t.tag ≠ tag := by
  intro t ht e
  obtain ⟨b, hb, rfl⟩ := List.mem_map.mp ht
  exact h (e ▸ List.mem_map_of_mem hb)

theorem filter_fullList (h : tag ∉ Builtin.tags) :
    (fullList types).filter (·.tag == tag) =
      (types.filter (·.tag == tag)).map SchemaType.user := by
  have hnone : (Builtin.all.map SchemaType.builtin).filter (·.tag == tag) = [] := by
    rw [List.filter_eq_nil_iff]
    simpa using builtins_tag_ne h
  rw [fullList, List.filter_append, hnone, List.nil_append, List.filter_map]
  rfl

theorem any_isBuiltin_fullList (h : tag ∈ Builtin.tags) :
    ((fullList types).filter (·.tag == tag)).any (·.kind.isBuiltin) = true := by
  obtain ⟨b, hb, rfl⟩ := List.mem_map.mp h
  rw [List.any_eq_true]
  refine ⟨.builtin b, List.mem_filter.mpr ⟨?_, by simp [SchemaType.tag]⟩, rfl⟩
  exact List.mem_append_left _ (List.mem_map_of_mem hb)

theorem eraseP_fullList (h : tag ∉ Builtin.tags) :
    (fullList types).eraseP (·.tag == tag) = fullList (types.eraseP (·.tag == tag)) := by
  have hnone : ∀ t ∈ Builtin.all.map SchemaType.builtin, ¬ (t.tag == tag) = true := by
    simpa using builtins_tag_ne h
  rw [fullList, List.eraseP_append_right _ hnone, List.eraseP_map]
  rfl

end FullList

/-! ## Each clause on the full list -/

namespace SumEdit

variable {domain : String} {e : SumEdit} {t : SchemaType} {rest : List SchemaType}

theorem applyAmong_of_tag_ne (h : t.tag ≠ e.tag) :
    e.applyAmong domain (t :: rest) = (e.applyAmong domain rest).map (t :: ·) := by
  rw [applyAmong.eq_def]
  exact if_neg h

theorem applyAmong_builtin_cons {b : Builtin} (h : b.tag = e.tag) :
    e.applyAmong domain (.builtin b :: rest) = .error (.notASum domain e.tag .builtin) := by
  rw [applyAmong.eq_def]
  exact if_pos h

theorem applyAmong_product_cons {q : ProductType} (h : q.tag = e.tag) :
    e.applyAmong domain (.user (.product q) :: rest) =
      .error (.notASum domain e.tag .product) := by
  rw [applyAmong.eq_def]
  exact if_pos h

theorem applyAmong_sum_cons {s : SumType} (h : s.tag = e.tag) :
    e.applyAmong domain (.user (.sum s) :: rest) =
      match e.applyTo s with
      | .ok s' => .ok (.user (.sum s') :: rest)
      | .error name => .error (.nonexistentVariant domain e.tag name) := by
  rw [applyAmong.eq_def]
  exact if_pos h

/-- A builtin of the tag is found first, and it is no sum. -/
theorem applyAmong_of_builtin {bs : List Builtin} (h : e.tag ∈ bs.map Builtin.tag) :
    e.applyAmong domain (bs.map SchemaType.builtin ++ rest) =
      .error (.notASum domain e.tag .builtin) := by
  induction bs with
  | nil => cases h
  | cons b bs ih =>
    rw [List.map_cons, List.cons_append]
    by_cases hb : b.tag = e.tag
    · exact applyAmong_builtin_cons hb
    · have hbs : e.tag ∈ bs.map Builtin.tag := (List.mem_cons.mp h).resolve_left (Ne.symm hb)
      have hne : (SchemaType.builtin b).tag ≠ e.tag := hb
      rw [applyAmong_of_tag_ne hne, ih hbs]
      rfl

theorem applyAmong_of_not_builtin {bs : List Builtin} (h : e.tag ∉ bs.map Builtin.tag) :
    e.applyAmong domain (bs.map SchemaType.builtin ++ rest) =
      (e.applyAmong domain rest).map (bs.map SchemaType.builtin ++ ·) := by
  induction bs with
  | nil => cases h' : e.applyAmong domain rest <;> simp [Except.map, h']
  | cons b bs ih =>
    obtain ⟨hb, hbs⟩ := not_or.mp (mt List.mem_cons.mpr h)
    have hne : (SchemaType.builtin b).tag ≠ e.tag := Ne.symm hb
    rw [List.map_cons, List.cons_append, applyAmong_of_tag_ne hne, ih hbs]
    cases e.applyAmong domain rest <;> rfl

theorem applyAmong_map_user (types : List UserType) :
    e.applyAmong domain (types.map SchemaType.user) =
      (e.applyWithin domain types).map (List.map SchemaType.user) := by
  induction types with
  | nil => rfl
  | cons t ts ih =>
    rw [List.map_cons]
    by_cases ht : t.tag = e.tag
    · cases t with
      | product q =>
        rw [applyAmong_product_cons ht, applyWithin_product_cons ht]
        rfl
      | sum s =>
        rw [applyAmong_sum_cons ht, applyWithin_sum_cons ht]
        cases e.applyTo s <;> rfl
    · have hne : (SchemaType.user t).tag ≠ e.tag := ht
      rw [applyAmong_of_tag_ne hne, applyWithin_of_tag_ne ht, ih]
      cases e.applyWithin domain ts <;> rfl

end SumEdit

namespace Permutation

variable {p : Permutation} {base : Domain}

theorem excludeFrom_fullList (types : List UserType) (tag : String) :
    p.excludeFrom base (fullList types) tag = (p.excludeType base types tag).map fullList := by
  by_cases h : tag ∈ Builtin.tags
  · rw [excludeFrom, if_pos (any_isBuiltin_fullList h), excludeType_of_builtin h]
    rfl
  · have hany : ¬ ((fullList types).filter (·.tag == tag)).any (·.kind.isBuiltin) = true := by
      rw [filter_fullList h, List.any_map, List.any_eq_true]
      rintro ⟨_ | _, -, ht⟩ <;> cases ht
    rw [excludeFrom, if_neg hany, excludeType, if_neg (mt Builtin.isSome_ofTag?_iff.mp h),
      filter_fullList h, List.length_map, ← List.countP_eq_length_filter, eraseP_fullList h]
    generalize hn : types.countP (·.tag == tag) = n
    rcases n with _ | _ | n
    · rfl
    · rfl
    · rfl

theorem editAmong_fullList (types : List UserType) (e : SumEdit) :
    p.editAmong (fullList types) e = (p.editType types e).map fullList := by
  unfold editAmong fullList
  by_cases h : e.tag ∈ Builtin.tags
  · rw [SumEdit.applyAmong_of_builtin h, editType_of_builtin h]
    rfl
  · rw [SumEdit.applyAmong_of_not_builtin h, SumEdit.applyAmong_map_user,
      editType_of_not_builtin h]
    cases e.applyWithin p.tag types <;> rfl

end Permutation

/-! ## The whole application -/

/-- **Declared types pass the check.** -/
theorem Domain.ofTypes_map_user (tag : String) (types : List UserType) (origin : Origin) :
    ofTypes tag (types.map SchemaType.user) origin = .ok { tag, userTypes := types, origin } := by
  unfold ofTypes
  split
  · next b hb =>
    obtain ⟨t, ht, e⟩ := List.exists_of_findSome?_eq_some hb
    obtain ⟨u, -, rfl⟩ := List.mem_map.mp ht
    cases e
  · rw [filterMap_user?_map_user]

theorem filter_not_builtin (types : List SchemaType) :
    (types.filter fun t => !t.kind.isBuiltin) =
      (types.filterMap SchemaType.user?).map SchemaType.user := by
  induction types with
  | nil => rfl
  | cons t ts ih =>
    rcases t with b | q | s
    · exact ih
    · exact congrArg (SchemaType.user (.product q) :: ·) ih
    · exact congrArg (SchemaType.user (.sum s) :: ·) ih

/-- **Both applications agree**, on every base. -/
theorem Permutation.applyChecked_eq (p : Permutation) (base : Domain) :
    p.applyChecked base = p.applyTo base := by
  unfold applyChecked applyTo
  change (p.excluded.names.foldlM (p.excludeFrom base) (fullList base.userTypes)).bind _ = _
  rw [foldlM_clauses, without_nil, foldlM_map_of_comm excludeFrom_fullList]
  cases p.excluded.names.foldlM (p.excludeType base) base.userTypes with
  | error e => rfl
  | ok kept =>
    change (p.sumEdits.foldlM p.editAmong (fullList kept)).bind _ =
      Except.map _ (p.sumEdits.foldlM p.editType kept)
    rw [foldlM_map_of_comm editAmong_fullList]
    cases p.sumEdits.foldlM p.editType kept with
    | error e => rfl
    | ok types =>
      change Except.mapError _ (Domain.ofTypes _ _ _) = _
      rw [filter_not_builtin, Domain.ofTypes_map_user, List.filterMap_append,
        filterMap_user?_fullList]
      rfl

end VersionedTypes
