import VersionedTypes.Proofs.Resolution.Rounds

/-!
# Flattening

A resolved universe can be declared without permutations: as its published domains, each in full,
and a request for every transform. Resolving these declarations gives the universe back.

* `Transform.request`, `Universe.flattened`: the declarations of a universe;
* `Universe.SelfContained`: valid domains under their own tags, and transforms between them;
* `Reachable.selfContained`: every resolution ends with a self-contained universe;
* **`exists_resolution_flattened`**: a self-contained universe is the resolution of its own
  declarations, which make no mistake;
* **`exists_resolution_iff_selfContained`**: these are all the universes there are;
* **`resolution_of_flattened`**: resolving once more changes nothing.
-/

namespace VersionedTypes

/-- The request that a transform answers. -/
def Transform.request (t : Transform) : TransformRequest :=
  { name := t.name, source := t.source, destination := t.destination, origin := t.origin }

namespace Universe

/-- The published domains as plain ones, in order, and then a request for each transform. -/
def flattened (u : Universe) : List Declaration :=
  u.domains.values.map Declaration.domain ++ u.transforms.map fun t => .transform t.request

/-- Every domain is valid and stands under its own tag, and every transform is the answer to its own
request. -/
structure SelfContained (u : Universe) : Prop where
  domains : ∀ tag d, u.domains.get? tag = some d → d.tag = tag ∧ d.errors = []
  transforms : ∀ t ∈ u.transforms, t.request.answer? u.domains = some t

end Universe

namespace Declaration

variable {ds : List Declaration} {n : Nat}

theorem domains_flattened (u : Universe) : domains u.flattened = u.domains.values := by
  simp [domains, Universe.flattened, List.filterMap_append, List.filterMap_map, Function.comp_def,
    domain?]

theorem permutations_flattened (u : Universe) : permutations u.flattened = [] := by
  simp [permutations, Universe.flattened, List.filterMap_append, List.filterMap_map,
    Function.comp_def, permutation?]

theorem requests_flattened (u : Universe) :
    requests u.flattened = u.transforms.map Transform.request := by
  simp [requests, Universe.flattened, List.filterMap_append, List.filterMap_map, Function.comp_def,
    request?]

theorem order_of_permutations_eq_nil (h : permutations ds = []) :
    order ds n = (domains ds).map domain := by
  have hlayer : layer ds 0 = [] := by rw [layer, h]; rfl
  rw [order_eq_of_le hlayer (Nat.zero_le n), order, unreached, h]
  exact List.append_nil _

end Declaration

namespace Resolution

open Declaration

variable {ds : List Declaration} {u : Universe} {s : Resolution} {t : Transform}

/-- **Every resolution ends with a self-contained universe.** -/
theorem Reachable.selfContained (h : Reachable ds ⟨.answering [], s⟩) :
    s.toUniverse.SelfContained where
  domains := h.sound
  transforms := by
    intro t ht
    rw [h.transforms_eq] at ht
    obtain ⟨r, -, hr⟩ := List.mem_filterMap.mp ht
    obtain ⟨a, b, ha, hb, rfl⟩ := answer?_eq_some_iff.mp hr
    exact hr

/-! ## The resolution of a flattened universe -/

section Flattened

variable (hu : u.SelfContained)

include hu

theorem tags_flattened : tags u.flattened = u.domains.keys := by
  rw [tags, domains_flattened, permutations_flattened, List.map_nil, List.append_nil,
    OrderedMap.values, List.map_map]
  exact List.map_congr_left fun e he => (hu.domains _ _ (OrderedMap.get?_eq_some_iff.mpr he)).1

/-- All domains are published, in the order in which they are declared. -/
theorem domains_of_flattened (h : Reachable u.flattened ⟨.answering [], s⟩) :
    s.domains = u.domains := by
  have hn : (tags u.flattened).Nodup := tags_flattened hu ▸ u.domains.nodup
  obtain ⟨n, hentries⟩ := h.entries_eq_order hn
  apply OrderedMap.eq_of_entries_eq
  rw [hentries n le_rfl, order_of_permutations_eq_nil (permutations_flattened u),
    domains_flattened, OrderedMap.values, List.filterMap_map, List.filterMap_map]
  conv_rhs => rw [← List.filterMap_some (l := u.domains.entries)]
  refine List.filterMap_congr fun e he => ?_
  obtain ⟨htag, hvalid⟩ := hu.domains _ _ (OrderedMap.get?_eq_some_iff.mpr he)
  have hd : domain e.2 ∈ u.flattened :=
    mem_domains.mp (domains_flattened u ▸ List.mem_map_of_mem he)
  have hget := (h.get?_domain hn hd).1
  rw [if_pos hvalid] at hget
  change s.entryOf? (domain e.2) = some e
  rw [entryOf?, name, hget, htag]
  rfl

theorem transforms_of_flattened (h : Reachable u.flattened ⟨.answering [], s⟩) :
    s.transforms = u.transforms := by
  rw [h.transforms_eq, domains_of_flattened hu h, requests_flattened, List.filterMap_map]
  conv_rhs => rw [← List.filterMap_some (l := u.transforms)]
  exact List.filterMap_congr hu.transforms

theorem diagnostics_of_flattened (h : Reachable u.flattened ⟨.answering [], s⟩) :
    s.diagnostics = [] := by
  refine h.diagnostics_eq_nil ⟨h.size_domains_eq_iff.mp ?_, h.length_transforms_eq_iff.mp ?_⟩
  · rw [domains_of_flattened hu h, domains_flattened, permutations_flattened]
    simp [OrderedMap.size, OrderedMap.values]
  · rw [transforms_of_flattened hu h, requests_flattened, List.length_map]

/-- **A self-contained universe is what its own declarations come to**, without a mistake. -/
theorem exists_resolution_flattened :
    ∃ s, ofDeclarations u.flattened = .ok s ∧ s.diagnostics = [] ∧ s.toUniverse = u := by
  obtain ⟨s, hs, h⟩ := exists_reachable u.flattened
  refine ⟨s, hs, diagnostics_of_flattened hu h, ?_⟩
  have hdomains := domains_of_flattened hu h
  have htransforms := transforms_of_flattened hu h
  cases u
  exact congrArg₂ Universe.mk hdomains htransforms

end Flattened

/-- **The universes that declaration lists come to** are the self-contained ones. -/
theorem exists_resolution_iff_selfContained :
    (∃ ds s, ofDeclarations ds = .ok s ∧ s.toUniverse = u) ↔ u.SelfContained := by
  constructor
  · rintro ⟨ds, s, hs, rfl⟩
    obtain ⟨s', hs', h⟩ := exists_reachable ds
    cases hs.symm.trans hs'
    exact h.selfContained
  · intro hu
    obtain ⟨s, hs, -, he⟩ := exists_resolution_flattened hu
    exact ⟨u.flattened, s, hs, he⟩

/-- **Resolving is idempotent.** Whatever a declaration list comes to, its published domains as
plain ones in the order of their publication, followed by a request for each transform, make no
mistake and come to the same domains in the same order and to the same transforms. -/
theorem resolution_of_flattened (ds : List Declaration) :
    ∃ s s', ofDeclarations ds = .ok s ∧ ofDeclarations s.toUniverse.flattened = .ok s' ∧
      s'.diagnostics = [] ∧ s'.domains = s.domains ∧ s'.transforms = s.transforms := by
  obtain ⟨s, hs, h⟩ := exists_reachable ds
  obtain ⟨s', hs', hdiagnostics, he⟩ := exists_resolution_flattened h.selfContained
  exact ⟨s, s', hs, hs', hdiagnostics, congrArg Universe.domains he,
    congrArg Universe.transforms he⟩

end Resolution

end VersionedTypes
