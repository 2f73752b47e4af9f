import VersionedTypes.Proofs.Permutation.Edits
import VersionedTypes.Proofs.Validation

/-!
# Applications never break a promise of a valid base

The only promise that the application of a permutation relies on is that no tag of the base is
declared twice. Every clause keeps it, so a valid base is never at fault.

* `SumEdit.tags_applyWithin`: a sum edit changes no tag;
* `Permutation.nodup_applyClause`, `Permutation.editType_ne_fault`,
  `Permutation.applyClause_ne_fault`: one clause;
* **`Permutation.applyTo_ne_fault`**: no fault on a valid base;
* `Permutation.tag_of_applyTo`: the result has the tag of the permutation.
-/

namespace VersionedTypes

theorem SumEdit.tag_of_applyTo {e : SumEdit} {s s' : SumType} (h : e.applyTo s = .ok s') :
    s'.tag = s.tag := by
  obtain ⟨kept, -, rfl⟩ := map_eq_ok_iff.mp h
  rfl

theorem SumEdit.tags_applyWithin {domain : String} {e : SumEdit} {types types' : List UserType}
    (h : e.applyWithin domain types = .ok types') :
    types'.map UserType.tag = types.map UserType.tag := by
  obtain ⟨front, s, s', back, rfl, rfl, -, -, hs⟩ := exists_of_applyWithin h
  simp [UserType.tag, tag_of_applyTo hs]

namespace Permutation

variable {p : Permutation} {base d : Domain} {types types' : List UserType}

theorem excludeType_eq_ok {tag : String} (h : p.excludeType base types tag = .ok types') :
    types' = types.eraseP (·.tag == tag) := by
  rw [excludeType] at h
  split at h
  · cases h
  · split at h
    · cases h
    · cases h; rfl
    · cases h

theorem editType_eq_ok {e : SumEdit} (h : p.editType types e = .ok types') :
    e.applyWithin p.tag types = .ok types' := by
  rw [editType] at h
  split at h
  · cases h
  · cases he : e.applyWithin p.tag types with
    | error _ => rw [he] at h; cases h
    | ok ts => rw [he] at h; cases h; rfl

theorem nodup_applyClause {c : Clause} (h : p.applyClause base types c = .ok types')
    (hn : (types.map UserType.tag).Nodup) : (types'.map UserType.tag).Nodup := by
  cases c with
  | exclude tag =>
    rw [excludeType_eq_ok h]
    exact hn.sublist (List.eraseP_sublist.map _)
  | edit e => rwa [SumEdit.tags_applyWithin (editType_eq_ok h)]

theorem editType_ne_fault {e : SumEdit} {f : Fault} : p.editType types e ≠ .error (.fault f) := by
  intro h
  rw [editType] at h
  split at h
  · cases h
  · cases he : e.applyWithin p.tag types with
    | error _ => rw [he] at h; cases h
    | ok ts => rw [he] at h; cases h

theorem applyClause_ne_fault {c : Clause} {f : Fault} (hn : (types.map UserType.tag).Nodup) :
    p.applyClause base types c ≠ .error (.fault f) := by
  intro h
  cases c with
  | exclude tag =>
    have hc : types.countP (·.tag == tag) ≤ 1 := by
      rw [countP_key hn]
      split <;> decide
    rw [applyClause, excludeType] at h
    split at h
    · cases h
    · split at h
      · cases h
      · cases h
      · next h0 h1 => exact (Nat.le_one_iff_eq_zero_or_eq_one.mp hc).elim h0 h1
  | edit e => exact editType_ne_fault h

theorem foldlM_applyClause_ne_fault {f : Fault} {cs : List Clause}
    (hn : (types.map UserType.tag).Nodup) :
    cs.foldlM (p.applyClause base) types ≠ .error (.fault f) := by
  induction cs generalizing types with
  | nil => exact fun h => by cases h
  | cons c cs ih =>
    rw [List.foldlM_cons]
    cases hc : p.applyClause base types c with
    | error e => exact fun h => applyClause_ne_fault hn (hc.trans h)
    | ok types' => exact ih (nodup_applyClause hc hn)

/-- **A valid base is never at fault.** -/
theorem applyTo_ne_fault (hb : base.errors = []) (f : Fault) :
    p.applyTo base ≠ .error (.fault f) := by
  rw [applyTo, ne_eq, map_eq_error_iff]
  exact foldlM_applyClause_ne_fault (Domain.nodup_tags_of_errors_eq_nil hb)

theorem tag_of_applyTo (h : p.applyTo base = .ok d) : d.tag = p.tag := by
  obtain ⟨types, -, rfl⟩ := map_eq_ok_iff.mp h
  rfl

theorem apply_of_get? {domains : DomainMap} (hb : domains.get? p.base = some base) :
    p.apply domains = p.applyTo base := by
  rw [apply, hb]

theorem exists_base_of_apply {domains : DomainMap} (h : p.apply domains = .ok d) :
    ∃ base, domains.get? p.base = some base := by
  unfold apply at h
  split at h
  · next base hb => exact ⟨base, hb⟩
  · cases h

theorem tag_of_apply {domains : DomainMap} (h : p.apply domains = .ok d) : d.tag = p.tag := by
  unfold apply at h
  split at h
  · exact tag_of_applyTo h
  · cases h

end Permutation

end VersionedTypes
