import VersionedTypes.Proofs.Permutation.WorkingList

/-!
# Which permutations are at fault

A base that was never validated may declare a tag twice, and then a promise can be broken: that an
excluded tag stands for one type. No other promise ever is, whatever the base. Sum edits rely on
none, and of the included types the builtins are left out before the domain is made.

* `Permutation.Ambiguous`: an exclusion finds several types, and those in front of it find one each;
* `Permutation.applyTo_of_ambiguous`, **`Permutation.applyTo_eq_fault_iff`**: the faults on a given
  base, with `Permutation.apply_eq_fault_iff` among several domains;
* `Permutation.applyCheckedAmong`: the application to a base among several domains, with all checks;
* **`Permutation.fault_iff_ambiguous`**: it is at fault iff an exclusion is ambiguous.
-/

namespace VersionedTypes

namespace Permutation

variable {p : Permutation} {base : Domain} {tag : String} {f : Fault}

/-- The tag is excluded and stands for several declared types, while each tag that is excluded in
front of it stands for one. -/
def Ambiguous (p : Permutation) (base : Domain) (tag : String) : Prop :=
  tag ∉ Builtin.tags ∧ 2 ≤ base.userTypes.countP (·.tag == tag) ∧
    ∃ done rest, p.excluded.names = done ++ tag :: rest ∧ ∀ t ∈ done, base.DeclaresOnce t

theorem applyTo_of_ambiguous (h : p.Ambiguous base tag) :
    p.applyTo base = .error (.fault
      (.ambiguousTag tag (base.userTypes.countP (·.tag == tag)) base.tag p.origin)) := by
  obtain ⟨hb, hmany, done, rest, hx, hdone⟩ := h
  have hnew : tag ∉ done := fun ht =>
    (List.nodup_append.mp (hx ▸ p.excluded.nodup)).2.2 tag ht tag List.mem_cons_self rfl
  refine applyTo_of_exclusion hx hdone ?_
  rw [excludeType_of_ambiguous hb (by rwa [countP_without hnew]), countP_without hnew]

theorem applyTo_ne_fault_of_exclusions (h : ∀ tag ∈ p.excluded.names, base.DeclaresOnce tag)
    (f : Fault) : p.applyTo base ≠ .error (.fault f) := by
  rw [applyTo, ne_eq, map_eq_error_iff, foldlM_clauses, foldlM_exclusions h]
  exact foldlM_ne_error (fun _ _ => editType_ne_fault) _

/-- **The only fault is an ambiguous exclusion.** -/
theorem applyTo_eq_fault_iff :
    p.applyTo base = .error (.fault f) ↔
      ∃ tag, p.Ambiguous base tag ∧
        f = .ambiguousTag tag (base.userTypes.countP (·.tag == tag)) base.tag p.origin := by
  constructor
  · intro hf
    rcases inTurn_or_first (fun _ tag => base.DeclaresOnce tag) p.excluded.names with
      hx | ⟨done, tag, rest, hx, hdone, htag⟩
    · exact absurd hf (applyTo_ne_fault_of_exclusions (inTurn_iff_forall.mp hx) f)
    · have hdone := inTurn_iff_forall.mp hdone
      have hstuck : ∀ failure, p.excludeType base (base.without done) tag = .error failure →
          failure = .fault f := fun failure he => by
        rw [applyTo_of_exclusion hx hdone he] at hf
        exact Except.error.inj hf
      -- a builtin and a tag that nothing has are mistakes of the permutation
      by_cases hb : tag ∈ Builtin.tags
      · cases hstuck _ (excludeType_of_builtin hb)
      by_cases hmem : tag ∈ base.userTypes.map UserType.tag
      · have hmany := two_le_countP_key hmem fun hone => htag ⟨hb, hone⟩
        have hambiguous : p.Ambiguous base tag := ⟨hb, hmany, done, rest, hx, hdone⟩
        rw [applyTo_of_ambiguous hambiguous] at hf
        cases hf
        exact ⟨tag, hambiguous, rfl⟩
      · cases hstuck _ (excludeType_of_not_mem hb fun h => hmem (mem_tags_without.mp h).1)
  · rintro ⟨tag, h, rfl⟩
    exact applyTo_of_ambiguous h

theorem apply_eq_fault_iff {domains : DomainMap} :
    p.apply domains = .error (.fault f) ↔
      ∃ base tag, domains.get? p.base = some base ∧ p.Ambiguous base tag ∧
        f = .ambiguousTag tag (base.userTypes.countP (·.tag == tag)) base.tag p.origin := by
  unfold apply
  cases domains.get? p.base with
  | none => simp
  | some base => simp [applyTo_eq_fault_iff]

/-- The application on the full list of types, with the final check, to the base among `domains`. -/
def applyCheckedAmong (p : Permutation) (domains : DomainMap) : Except Failure Domain :=
  match domains.get? p.base with
  | some base => p.applyChecked base
  | none => .error (.illegal p.missingBase)

theorem applyCheckedAmong_eq (p : Permutation) (domains : DomainMap) :
    p.applyCheckedAmong domains = p.apply domains := by
  unfold applyCheckedAmong apply
  cases domains.get? p.base with
  | none => rfl
  | some base => exact p.applyChecked_eq base

/-- **A permutation is at fault** exactly if its base exists and an exclusion is ambiguous there:
the tag is no builtin's and stands for several declared types of the base, while each tag that is
excluded in front of it is no builtin's and stands for one. The fault names the tag, the number of
its types and the domain. In every other case the application gives a domain or a mistake, whatever
is edited and included, and the final check for builtins never finds one. -/
theorem fault_iff_ambiguous (p : Permutation) (domains : DomainMap) :
    (∀ f, p.applyCheckedAmong domains = .error (.fault f) ↔
      ∃ base tag, domains.get? p.base = some base ∧ p.Ambiguous base tag ∧
        f = .ambiguousTag tag (base.userTypes.countP (·.tag == tag)) base.tag p.origin) ∧
    ((¬ ∃ base tag, domains.get? p.base = some base ∧ p.Ambiguous base tag) →
      (∃ d, p.applyCheckedAmong domains = .ok d) ∨
        ∃ e, p.applyCheckedAmong domains = .error (.illegal e)) ∧
    p.applyCheckedAmong domains = p.apply domains := by
  rw [applyCheckedAmong_eq]
  refine ⟨fun f => apply_eq_fault_iff, fun hno => ?_, rfl⟩
  cases h : p.apply domains with
  | ok d => exact Or.inl ⟨d, rfl⟩
  | error failure =>
    cases failure with
    | illegal e => exact Or.inr ⟨e, rfl⟩
    | fault f =>
      obtain ⟨base, tag, hbase, hambiguous, -⟩ := apply_eq_fault_iff.mp h
      exact absurd ⟨base, tag, hbase, hambiguous⟩ hno

/-- The domain is named, and not the key under which it is found. -/
example :
    let base : Domain :=
      { tag := "draft",
        userTypes := [.product { tag := "line" }, .product { tag := "point" },
          .sum { tag := "point" }] }
    let p : Permutation :=
      { tag := "v2", base := "v1", excluded := (NameSet.empty.insert "line").insert "point",
        included := [.builtin .int], sumEdits := [{ tag := "gone" }] }
    p.applyCheckedAmong (OrderedMap.empty.insert "v1" base) =
      .error (.fault (.ambiguousTag "point" 2 "draft" Origin.blank)) := by
  decide

end Permutation

end VersionedTypes
