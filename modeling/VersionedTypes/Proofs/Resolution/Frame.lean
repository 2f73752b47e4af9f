import Mathlib.Data.List.Flatten
import VersionedTypes.Proofs.Resolution.Derivation
import VersionedTypes.Proofs.Resolution.Rounds
import VersionedTypes.Proofs.Resolution.Suppression

/-!
# Unrelated declarations

Declarations that are interleaved into a list leave what becomes of it as it is, if their tags are
new and no declaration of the list depends on them. Links from the tags of the list stay among its
tags, whatever is interleaved. So the same of its tags are known after each round, the same domains
can be derived under them, and the same of its permutations are hopeless.

* `Unrelated`: the declarations `es` of new tags, on which none of `ds` depends;
* `Unrelated.mem_known_iff`, `Unrelated.filter_order`: rounds and the order of work;
* `Unrelated.derivable_iff`, `Unrelated.hopeless_iff`: what can be derived, and what is hopeless;
* **`resolution_of_interleaving`**: domains, transforms and mistakes of the list are left alone.
-/

namespace VersionedTypes

namespace Resolution

open Declaration Relation

/-- The declarations `es` have tags that none of `ds` has, and on which none of `ds` depends. -/
structure Unrelated (ds es : List Declaration) : Prop where
  distinct : ∀ tag ∈ tags es, tag ∉ tags ds
  apart : ∀ c ∈ ds, ∀ tag ∈ c.dependencies, tag ∉ tags es

variable {ds es ls : List Declaration} {c : Declaration} {p : Permutation} {r : TransformRequest}
  {d : Domain} {tag a b : String} {n : Nat}

/-! ## Tags -/

theorem interleaving_domains (hl : Interleaving ds es ls) :
    Interleaving (domains ds) (domains es) (domains ls) := hl.filterMap _

theorem interleaving_permutations (hl : Interleaving ds es ls) :
    Interleaving (permutations ds) (permutations es) (permutations ls) := hl.filterMap _

theorem interleaving_requests (hl : Interleaving ds es ls) :
    Interleaving (requests ds) (requests es) (requests ls) := hl.filterMap _

theorem definitions_sublist (hl : Interleaving ds es ls) :
    (definitions ds).Sublist (definitions ls) :=
  ((interleaving_domains hl).sublist.map _).append ((interleaving_permutations hl).sublist.map _)

theorem mem_tags_interleaving (hl : Interleaving ds es ls) :
    tag ∈ tags ls ↔ tag ∈ tags ds ∨ tag ∈ tags es := by
  simp only [mem_tags, mem_definitions, hl.mem_iff, or_and_right, exists_or]

theorem nodup_tags_interleaving (hl : Interleaving ds es ls) (hn : (tags ds).Nodup)
    (hes : (tags es).Nodup) (hd : ∀ tag ∈ tags es, tag ∉ tags ds) : (tags ls).Nodup := by
  have hperm : (tags ls).Perm (tags ds ++ tags es) := by
    have hdefinitions := definitions_perm hl.perm
    rw [tags_eq, tags_eq, tags_eq, ← List.map_append]
    refine (hdefinitions.map name).trans (List.Perm.map _ ?_)
    refine (filter_perm_definitions _).symm.trans ?_
    rw [List.filter_append]
    exact (filter_perm_definitions ds).append (filter_perm_definitions es)
  rw [hperm.nodup_iff, List.nodup_append']
  exact ⟨hn, hes, fun tag ht he => hd tag he ht⟩

theorem mem_of_name_notMem (hl : Interleaving ds es ls) (hc : c ∈ ls) (hq : c.request? = none)
    (ht : c.name ∉ tags es) : c ∈ ds :=
  (hl.mem_iff.mp hc).resolve_right fun he => ht (name_mem_tags he hq)

namespace Unrelated

theorem tag_notMem (h : Unrelated ds es) (ht : tag ∈ tags ds) : tag ∉ tags es :=
  fun he => h.distinct tag he ht

theorem base_notMem (h : Unrelated ds es) (hp : permutation p ∈ ds) : p.base ∉ tags es :=
  h.apart _ hp _ (List.mem_singleton_self _)

theorem end_notMem (h : Unrelated ds es) (hr : r ∈ requests ds) (ht : tag ∈ endpoints r) :
    tag ∉ tags es := by
  refine h.apart _ (mem_requests.mp hr) _ ?_
  rw [dependencies, List.mem_pair]
  exact mem_endpoints.mp ht

theorem filter_of_interleaving {α : Type} {f : α → String} {xs ys zs : List α}
    (h : Unrelated ds es) (hl : Interleaving xs ys zs) (hx : ∀ x ∈ xs, f x ∈ tags ds)
    (hy : ∀ y ∈ ys, f y ∈ tags es) : zs.filter (fun z => f z ∈ tags ds) = xs :=
  hl.filter_eq (fun x hm => decide_eq_true (hx x hm))
    fun y hm => decide_eq_false (h.distinct _ (hy y hm))

/-! ## Rounds and the order of work -/

theorem mem_known_iff (h : Unrelated ds es) (hl : Interleaving ds es ls) (ht : tag ∉ tags es) :
    tag ∈ known ls n ↔ tag ∈ known ds n := by
  induction n generalizing tag with
  | zero => exact Iff.rfl
  | succ n ih =>
    rw [mem_known_succ, mem_known_succ]
    constructor
    · rintro (⟨d, hd, rfl⟩ | ⟨p, hp, hb, rfl⟩)
      · exact Or.inl ⟨d, mem_of_name_notMem hl hd rfl ht, rfl⟩
      · have hp : permutation p ∈ ds := mem_of_name_notMem hl hp rfl ht
        exact Or.inr ⟨p, hp, (ih (h.base_notMem hp)).mp hb, rfl⟩
    · rintro (⟨d, hd, rfl⟩ | ⟨p, hp, hb, rfl⟩)
      · exact Or.inl ⟨d, hl.mem_iff.mpr (Or.inl hd), rfl⟩
      · exact Or.inr ⟨p, hl.mem_iff.mpr (Or.inl hp), (ih (h.base_notMem hp)).mpr hb, rfl⟩

theorem filter_permutations (h : Unrelated ds es) (hl : Interleaving ds es ls) :
    (permutations ls).filter (fun p => p.tag ∈ tags ds) = permutations ds :=
  h.filter_of_interleaving (interleaving_permutations hl)
    (fun _ hp => name_mem_tags (mem_permutations.mp hp) rfl)
    fun _ hp => name_mem_tags (mem_permutations.mp hp) rfl

theorem filter_domains (h : Unrelated ds es) (hl : Interleaving ds es ls) :
    (domains ls).filter (fun d => d.tag ∈ tags ds) = domains ds :=
  h.filter_of_interleaving (interleaving_domains hl)
    (fun _ hd => name_mem_tags (mem_domains.mp hd) rfl)
    fun _ hd => name_mem_tags (mem_domains.mp hd) rfl

theorem filter_filter_permutations (h : Unrelated ds es) (hl : Interleaving ds es ls)
    (q' q : String → Bool) (hq : ∀ tag, tag ∉ tags es → q' tag = q tag) :
    ((permutations ls).filter fun p => q' p.base).filter (fun p => p.tag ∈ tags ds) =
      (permutations ds).filter fun p => q p.base := by
  rw [List.filter_filter]
  simp only [Bool.and_comm]
  rw [← List.filter_filter, h.filter_permutations hl]
  exact List.filter_congr fun p hp => hq _ (h.base_notMem (mem_permutations.mp hp))

theorem filter_layer (h : Unrelated ds es) (hl : Interleaving ds es ls) :
    (layer ls n).filter (fun p => p.tag ∈ tags ds) = layer ds n :=
  h.filter_filter_permutations hl (fun tag => tag ∈ known ls (n + 1) ∧ tag ∉ known ls n)
    (fun tag => tag ∈ known ds (n + 1) ∧ tag ∉ known ds n)
    fun tag ht => by simp only [h.mem_known_iff hl ht]

theorem filter_unreached (h : Unrelated ds es) (hl : Interleaving ds es ls) :
    (unreached ls n).filter (fun p => p.tag ∈ tags ds) = unreached ds n :=
  h.filter_filter_permutations hl (fun tag => tag ∉ known ls n) (fun tag => tag ∉ known ds n)
    fun tag ht => by simp only [h.mem_known_iff hl ht]

theorem filter_schedule (h : Unrelated ds es) (hl : Interleaving ds es ls) :
    (schedule ls n).filter (fun c => c.name ∈ tags ds) = schedule ds n := by
  induction n with
  | zero =>
    rw [schedule, schedule, List.filter_map]
    exact congrArg _ (h.filter_domains hl)
  | succ n ih =>
    rw [schedule, List.filter_append, ih, List.filter_map, schedule]
    exact congrArg (_ ++ List.map _ ·) (h.filter_layer hl)

/-- **The order of work** of the old tags is that of the list. -/
theorem filter_order (h : Unrelated ds es) (hl : Interleaving ds es ls) :
    (order ls n).filter (fun c => c.name ∈ tags ds) = order ds n := by
  rw [order, List.filter_append, h.filter_schedule hl, List.filter_map, order]
  exact congrArg (_ ++ List.map _ ·) (h.filter_unreached hl)

/-! ## What can be derived, and what is hopeless -/

theorem derivable_iff (h : Unrelated ds es) (hl : Interleaving ds es ls) (ht : tag ∉ tags es) :
    Derivable ls tag d ↔ Derivable ds tag d := by
  refine ⟨fun hd => ?_, .mono fun _ hc => hl.mem_iff.mpr (Or.inl hc)⟩
  induction hd with
  | plain hd he => exact .plain (mem_of_name_notMem hl hd rfl ht) he
  | permuted hp _ ha he ih =>
    have hp := mem_of_name_notMem hl hp rfl ht
    exact .permuted hp (ih (h.base_notMem hp)) ha he

theorem linkedTo_iff (hl : Interleaving ds es ls) (ha : a ∉ tags es) :
    LinkedTo ls a b ↔ LinkedTo ds a b := by
  constructor
  · rintro ⟨p, hp, rfl, rfl⟩
    exact ⟨p, mem_of_name_notMem hl hp rfl ha, rfl, rfl⟩
  · rintro ⟨p, hp, rfl, rfl⟩
    exact ⟨p, hl.mem_iff.mpr (Or.inl hp), rfl, rfl⟩

/-- Links from an old tag lead to old tags only. -/
theorem transGen_linkedTo_iff (h : Unrelated ds es) (hl : Interleaving ds es ls)
    (ha : a ∉ tags es) : TransGen (LinkedTo ls) a b ↔ TransGen (LinkedTo ds) a b := by
  constructor
  · intro hab
    -- from the front, since only the start of a link is known to be old
    induction hab using TransGen.head_induction_on with
    | single hab => exact .single ((linkedTo_iff hl ha).mp hab)
    | head hac _ ih =>
      obtain ⟨p, hp, rfl, rfl⟩ := (linkedTo_iff hl ha).mp hac
      exact .head ⟨p, hp, rfl, rfl⟩ (ih (h.base_notMem hp))
  · refine TransGen.mono ?_ _ _
    rintro _ _ ⟨p, hp, rfl, rfl⟩
    exact ⟨p, hl.mem_iff.mpr (Or.inl hp), rfl, rfl⟩

theorem hopeless_iff (h : Unrelated ds es) (hl : Interleaving ds es ls)
    (hp : permutation p ∈ ds) : Hopeless ls p ↔ Hopeless ds p := by
  have ht : p.tag ∈ tags ds := name_mem_tags hp rfl
  unfold Hopeless OnCircle
  rw [h.transGen_linkedTo_iff hl (h.tag_notMem ht), mem_tags_interleaving hl,
    or_iff_left (h.base_notMem hp)]

end Unrelated

/-! ## The frame -/

/-- **Unrelated declarations do not disturb each other.** -/
theorem resolution_of_interleaving (hl : Interleaving ds es ls) (hn : (tags ds).Nodup)
    (hes : (tags es).Nodup) (hd : ∀ tag ∈ tags es, tag ∉ tags ds)
    (ha : ∀ c ∈ ds, ∀ tag ∈ c.dependencies, tag ∉ tags es) :
    ∃ s s', ofDeclarations ds = .ok s ∧ ofDeclarations ls = .ok s' ∧
      s'.domains.entries.filter (fun e => e.1 ∈ tags ds) = s.domains.entries ∧
      s.transforms = (requests ds).filterMap (·.answer? s'.domains) ∧
      Interleaving s.transforms ((requests es).filterMap (·.answer? s'.domains)) s'.transforms ∧
      s.diagnostics.Subperm s'.diagnostics := by
  have h : Unrelated ds es := ⟨hd, ha⟩
  have hn' : (tags ls).Nodup := nodup_tags_interleaving hl hn hes hd
  obtain ⟨s, hs, hr⟩ := exists_reachable ds
  obtain ⟨s', hs', hr'⟩ := exists_reachable ls
  have hget : ∀ tag, tag ∉ tags es → s'.domains.get? tag = s.domains.get? tag := by
    intro tag ht
    ext d
    rw [hr'.get?_iff_derivable hn', hr.get?_iff_derivable hn, h.derivable_iff hl ht]
  have htransforms : s.transforms = (requests ds).filterMap (·.answer? s'.domains) := by
    rw [hr.transforms_eq]
    exact List.filterMap_congr fun r hm => answer?_congr
      (hget _ (h.end_notMem hm (mem_endpoints.mpr (Or.inl rfl)))).symm
      (hget _ (h.end_notMem hm (mem_endpoints.mpr (Or.inr rfl)))).symm
  refine ⟨s, s', hs, hs', ?_, htransforms, ?_, ?_⟩
  · obtain ⟨n, hentries⟩ := hr.entries_eq_order hn
    obtain ⟨n', hentries'⟩ := hr'.entries_eq_order hn'
    rw [hentries _ (Nat.le_max_left n n'), hentries' _ (Nat.le_max_right n n'),
      ← h.filter_order hl, List.filter_filterMap, List.filterMap_filter]
    refine List.filterMap_congr fun c _ => ?_
    -- both sides drop what has another tag, and agree on the tags of the list
    rw [entryOf?, entryOf?]
    by_cases ht : c.name ∈ tags ds
    · rw [hget _ (h.tag_notMem ht), if_pos (decide_eq_true ht)]
      cases s.domains.get? c.name <;> simp [ht]
    · rw [if_neg (by simpa using ht)]
      cases s'.domains.get? c.name <;> simp [ht]
  · rw [htransforms, hr'.transforms_eq]
    exact (interleaving_requests hl).filterMap _
  · have hdefinitions : (definitions ds).Sublist (definitions ls) := definitions_sublist hl
    have hreports : (definitions ds).flatMap s.reports = (definitions ds).flatMap s'.reports := by
      refine List.flatMap_congr fun c hc => ?_
      refine hr.reports_congr hn hn' hr' hc (hdefinitions.subset hc) ?_
      rintro p rfl
      have hp : permutation p ∈ ds := (mem_definitions.mp hc).1
      exact ⟨(h.hopeless_iff hl hp).symm, (hget _ (h.base_notMem hp)).symm⟩
    have hends : (requests ds).flatMap (undeclaredEnds ds) =
        (requests ds).flatMap (undeclaredEnds ls) := by
      refine List.flatMap_congr fun r hm => undeclaredEnds_congr fun tag ht => ?_
      rw [mem_tags_interleaving hl, or_iff_left (h.end_notMem hm ht)]
    refine (hr.diagnostics_perm_reports hn).subperm.trans ?_
    rw [hreports, hends]
    refine List.Subperm.trans ?_ (hr'.diagnostics_perm_reports hn').symm.subperm
    exact ((hdefinitions.flatMap _).append ((interleaving_requests hl).sublist.flatMap _)).subperm

/-- A third version, a circle and a further request among two versions with their request. They add
to what is published, computed and reported, and take nothing away. -/
theorem resolution_of_versions_among_others :
    let ds := [permutation { tag := "v2", base := "v1" }, domain { tag := "v1" },
      transform ⟨"up", "v1", "v2", Origin.blank⟩, permutation { tag := "x", base := "y" }]
    let es := [permutation { tag := "v3", base := "v2" }, permutation { tag := "a", base := "b" },
      permutation { tag := "b", base := "a" }, transform ⟨"back", "v3", "v1", Origin.blank⟩]
    let ls := [permutation { tag := "v3", base := "v2" }, permutation { tag := "v2", base := "v1" },
      permutation { tag := "a", base := "b" }, permutation { tag := "b", base := "a" },
      domain { tag := "v1" }, transform ⟨"back", "v3", "v1", Origin.blank⟩,
      transform ⟨"up", "v1", "v2", Origin.blank⟩, permutation { tag := "x", base := "y" }]
    Interleaving ds es ls ∧ (tags ds).Nodup ∧ (tags es).Nodup ∧
      (∀ tag ∈ tags es, tag ∉ tags ds) ∧ (∀ c ∈ ds, ∀ tag ∈ c.dependencies, tag ∉ tags es) ∧
      ∃ s s', ofDeclarations ds = .ok s ∧ ofDeclarations ls = .ok s' ∧
        s'.domains.entries.filter (fun e => e.1 ∈ tags ds) = s.domains.entries ∧
        s.transforms = (requests ds).filterMap (·.answer? s'.domains) ∧
        Interleaving s.transforms ((requests es).filterMap (·.answer? s'.domains)) s'.transforms ∧
        s.diagnostics.Subperm s'.diagnostics ∧
        s.domains.keys = ["v1", "v2"] ∧ s'.domains.keys = ["v1", "v2", "v3"] ∧
        s.transforms.map Transform.name = ["up"] ∧
        s'.transforms.map Transform.name = ["back", "up"] ∧
        s.diagnostics = [.permutation ⟨.nonexistentBase "x" "y", Origin.blank⟩] ∧
        s'.diagnostics = [.permutation ⟨.nonexistentBase "a" "b", Origin.blank⟩,
          .permutation ⟨.nonexistentBase "b" "a", Origin.blank⟩,
          .permutation ⟨.nonexistentBase "x" "y", Origin.blank⟩] := by
  intro ds es ls
  have hl : Interleaving ds es ls :=
    .right (.left (.right (.right (.left (.right (.left (.left .nil)))))))
  have hn : (tags ds).Nodup := by decide
  have hes : (tags es).Nodup := by decide
  have hd : ∀ tag ∈ tags es, tag ∉ tags ds := by decide
  have ha : ∀ c ∈ ds, ∀ tag ∈ c.dependencies, tag ∉ tags es := by decide
  have hv : (ofDeclarations ds).map
      (fun s => (s.domains.keys, s.transforms.map Transform.name, s.diagnostics)) =
        .ok (["v1", "v2"], ["up"], [.permutation ⟨.nonexistentBase "x" "y", Origin.blank⟩]) := by
    decide +kernel
  have hv' : (ofDeclarations ls).map
      (fun s => (s.domains.keys, s.transforms.map Transform.name, s.diagnostics)) =
        .ok (["v1", "v2", "v3"], ["back", "up"],
          [.permutation ⟨.nonexistentBase "a" "b", Origin.blank⟩,
            .permutation ⟨.nonexistentBase "b" "a", Origin.blank⟩,
            .permutation ⟨.nonexistentBase "x" "y", Origin.blank⟩]) := by
    decide +kernel
  obtain ⟨s, s', hs, hs', hentries, htransforms, hmixed, hdiagnostics⟩ :=
    resolution_of_interleaving hl hn hes hd ha
  rw [hs] at hv
  rw [hs'] at hv'
  obtain ⟨hkeys, hnames, hreports⟩ := by simpa only [Prod.mk.injEq] using Except.ok.inj hv
  obtain ⟨hkeys', hnames', hreports'⟩ := by simpa only [Prod.mk.injEq] using Except.ok.inj hv'
  exact ⟨hl, hn, hes, hd, ha, s, s', hs, hs', hentries, htransforms, hmixed, hdiagnostics, hkeys,
    hkeys', hnames, hnames', hreports, hreports'⟩

end Resolution

end VersionedTypes
