import VersionedTypes.Exchange.Encoding
import VersionedTypes.Proofs.Delta
import VersionedTypes.Proofs.Permutation.WorkingList
import VersionedTypes.Proofs.Resolution.Completeness

/-!
# No declaration list breaks a promise of the library

The library relies on promises that its functions do not keep for arbitrary arguments: a tag is
declared once, no builtin is among the declared types, and a reference stands for a type. Resolution
publishes nothing but what was found valid, so in all that it does and returns they are kept.

* `Domain.Closed`: every field has a type of the domain;
* `Domain.closed_of_errors_eq_nil`, `Domain.closed_delta`: valid domains are closed, and a delta is
  if its source is;
* `Domain.deltaChecked`: the delta made with the check that it declares no builtin;
* `Universe.write?`, `Universe.write?_eq`: writing a universe, where every type might be a builtin;
* **`Resolution.resolution_keeps_promises`**: all of it, for every declaration list.
-/

namespace VersionedTypes

/-! ## References -/

namespace Domain

variable {d a b : Domain} {t : UserType}

/-- Every field of every product has a type of the domain. -/
def Closed (d : Domain) : Prop :=
  ∀ t ∈ d.userTypes, ∀ q ∈ t.products, ∀ f ∈ q.fields, ∃ type, d.resolve f.type = .ok type

theorem exists_resolve_iff {r : TypeRef} :
    (∃ type, d.resolve r = .ok type) ↔ d.Names r.typeName := by
  rw [← isSome_get?_iff]
  unfold resolve
  cases d.get? r.typeName with
  | none => simp
  | some type => simp

/-- **Valid domains are closed.** -/
theorem closed_of_errors_eq_nil (h : d.errors = []) : d.Closed := by
  obtain ⟨-, -, hw⟩ := errors_eq_nil_iff.mp h
  intro t ht q hq f hf
  rw [exists_resolve_iff]
  cases t with
  | product p =>
    obtain rfl := List.mem_singleton.mp hq
    exact (hw _ ht).2 f hf
  | sum s => exact ((hw _ ht).2 q hq).2 f hf

end Domain

/-! ## Marks change no field -/

theorem UserType.exists_fields_eq_of_mem_markAgainst {t : UserType} {target : Option SchemaType}
    {q : ProductType} (hq : q ∈ (t.markAgainst target).products) :
    ∃ p ∈ t.products, q.fields = p.fields := by
  unfold markAgainst at hq
  split at hq
  · next p p' =>
    obtain rfl := List.mem_singleton.mp hq
    exact ⟨p, List.mem_singleton_self p, p.fields_markAgainst p'⟩
  · next s s' =>
    obtain ⟨v, hv, rfl⟩ := List.mem_map.mp hq
    refine ⟨v, hv, ?_⟩
    split
    · next w _ => exact v.fields_markAgainst w
    · rfl
  · cases t with
    | product p =>
      obtain rfl := List.mem_singleton.mp hq
      exact ⟨p, List.mem_singleton_self p, rfl⟩
    | sum s => exact ⟨q, hq, rfl⟩

namespace Domain

variable {a b : Domain} {name : String}

theorem names_delta : (a.delta b).Names name ↔ a.Names name := by
  have htags : (a.delta b).userTypes.map UserType.tag = a.userTypes.map UserType.tag := by
    rw [delta, List.map_map]
    exact List.map_congr_left fun t _ => t.tag_markAgainst _
  unfold Names
  rw [htags]

/-- **The delta of a closed domain is closed.** -/
theorem closed_delta (h : a.Closed) : (a.delta b).Closed := by
  intro u hu q hq f hf
  obtain ⟨t, ht, rfl⟩ := List.mem_map.mp hu
  obtain ⟨p, hp, hfields⟩ := UserType.exists_fields_eq_of_mem_markAgainst hq
  rw [exists_resolve_iff, names_delta, ← exists_resolve_iff]
  exact h t ht p hp f (hfields ▸ hf)

end Domain

/-! ## Deltas with a check -/

/-- The domain `source` with marks on what does not survive in `destination`, made with the check
that no builtin is declared. -/
def Domain.deltaChecked (source destination : Domain) : Except Fault Domain :=
  ofTypes source.tag
    ((source.userTypes.map SchemaType.user).map fun t => t.markAgainst (destination.get? t.tag))
    source.origin

theorem Domain.deltaChecked_eq (source destination : Domain) :
    source.deltaChecked destination = .ok (source.delta destination) := by
  have htypes : ((source.userTypes.map SchemaType.user).map fun t =>
      t.markAgainst (destination.get? t.tag)) =
        (source.delta destination).userTypes.map SchemaType.user := by
    rw [delta, List.map_map, List.map_map]
    rfl
  unfold deltaChecked
  rw [htypes, ofTypes_map_user]
  rfl

/-! ## Writing a universe -/

/-- The written form of a domain, type by type. -/
def Domain.write? (d : Domain) : Except UnwritableBuiltin Json := do
  let types ← (d.userTypes.map SchemaType.user).mapM SchemaType.toJson?
  pure (.object [("tag", .string d.tag), ("user_types", .array types), ("meta", d.origin.toJson)])

/-- A transform with its delta, with the check that no builtin is written. -/
def Transform.write? (t : Transform) : Except UnwritableBuiltin Json := do
  let delta ← t.delta.write?
  pure (.object [("name", .string t.name), ("source_domain", .string t.source),
    ("destination_domain", .string t.destination), ("delta", delta), ("meta", t.origin.toJson)])

/-- The written form of a universe, unless a type in it is a builtin. -/
def Universe.write? (u : Universe) : Except UnwritableBuiltin Json := do
  let domains ← u.domains.entries.mapM fun e => do pure (e.1, ← e.2.write?)
  let transforms ← u.transforms.mapM Transform.write?
  pure (.object [("domains", .object domains), ("transforms", .array transforms)])

theorem Domain.write?_eq (d : Domain) : d.write? = .ok d.toJson := by
  have htypes : (d.userTypes.map SchemaType.user).mapM SchemaType.toJson? =
      .ok (d.userTypes.map UserType.toJson) := by
    rw [List.mapM_map]
    exact mapM_eq_ok (fun t => rfl) d.userTypes
  unfold write?
  rw [htypes]
  rfl

theorem Transform.write?_eq (t : Transform) : t.write? = .ok t.toJson := by
  unfold write?
  rw [t.delta.write?_eq]
  rfl

/-- **A universe can be written.** -/
theorem Universe.write?_eq (u : Universe) : u.write? = .ok u.toJson := by
  have hdomains : ∀ e : String × Domain,
      (do pure (e.1, ← e.2.write?) : Except UnwritableBuiltin (String × Json)) =
        .ok (e.1, e.2.toJson) := by
    intro e
    rw [e.2.write?_eq]
    rfl
  unfold write?
  rw [mapM_eq_ok hdomains, mapM_eq_ok Transform.write?_eq]
  rfl

/-! ## Resolution -/

namespace Resolution

/-- **No declaration list breaks a promise.** Whatever permutation is applied to a domain that is
published at any time of the run, the checks change nothing and no fault comes of it. The resolution
ends, its domains and deltas are closed, its deltas pass the check that they declare no builtin, and
its universe can be written. -/
theorem resolution_keeps_promises (ds : List Declaration) :
    (∀ k, Reachable ds k → ∀ (p : Permutation) base, k.state.domains.get? p.base = some base →
      p.applyChecked base = p.applyTo base ∧ ∀ f, p.applyChecked base ≠ .error (.fault f)) ∧
    ∃ s, ofDeclarations ds = .ok s ∧ Reachable ds ⟨.answering [], s⟩ ∧
      (∀ tag d, s.domains.get? tag = some d → d.Closed) ∧
      (∀ t ∈ s.transforms, t.delta.Closed ∧
        ∃ a b, s.domains.get? t.source = some a ∧ s.domains.get? t.destination = some b ∧
          a.deltaChecked b = .ok t.delta) ∧
      s.toUniverse.write? = .ok s.toUniverse.toJson := by
  refine ⟨fun k hk p base hbase => ⟨p.applyChecked_eq base, fun f => ?_⟩, ?_⟩
  · rw [p.applyChecked_eq]
    exact Permutation.applyTo_ne_fault (hk.sound _ _ hbase).2 f
  · obtain ⟨s, hs, h⟩ := exists_reachable ds
    have hclosed : ∀ tag d, s.domains.get? tag = some d → d.Closed := fun tag d hd =>
      Domain.closed_of_errors_eq_nil (h.sound tag d hd).2
    refine ⟨s, hs, h, hclosed, fun t ht => ?_, s.toUniverse.write?_eq⟩
    rw [h.transforms_eq] at ht
    obtain ⟨r, -, hr⟩ := List.mem_filterMap.mp ht
    obtain ⟨a, b, ha, hb, rfl⟩ := answer?_eq_some_iff.mp hr
    exact ⟨Domain.closed_delta (hclosed _ _ ha), a, b, ha, hb, a.deltaChecked_eq b⟩

end Resolution

end VersionedTypes
