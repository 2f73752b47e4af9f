import Mathlib.Data.Finset.Order
import VersionedTypes.Proofs.Lists.Sorting
import VersionedTypes.Proofs.Resolution.Derivation
import VersionedTypes.Proofs.Resolution.Rounds

/-!
# The order of publication

A permutation becomes ready in the round after that of its base, whether its base was published or
rejected, and whatever else is done in that round. So it is applied in the round that is the number
of permutations between it and its plain domain, and domains are published in the order of these
numbers.

* `Declaration.Depth`, `Declaration.Depth.unique`: the number of permutations down to a plain
  domain;
* **`Declaration.mem_known_iff_depth`**: what is known after some rounds are the smaller depths;
* `Derivable.exists_depth`, `Reachable.exists_depth_base`: every domain that can be derived has a
  depth;
* **`publication_sorted_by_depth`**: the order of publication is a stable sort by depth.
-/

namespace VersionedTypes

/-! ## Depths -/

namespace Declaration

variable {ds : List Declaration} {p : Permutation} {tag : String} {m n : Nat}

/-- The tag is that of a plain domain, or of the last of so many permutations of one, each of the
one before. -/
inductive Depth (ds : List Declaration) : String → Nat → Prop
  | plain {d : Domain} (hd : domain d ∈ ds) : Depth ds d.tag 0
  | permuted {p : Permutation} {n : Nat} (hp : permutation p ∈ ds) (hb : Depth ds p.base n) :
    Depth ds p.tag (n + 1)

theorem depth_zero_iff : Depth ds tag 0 ↔ ∃ d, domain d ∈ ds ∧ d.tag = tag := by
  constructor
  · intro h
    cases h with | plain hd => exact ⟨_, hd, rfl⟩
  · rintro ⟨d, hd, rfl⟩
    exact .plain hd

theorem depth_succ_iff :
    Depth ds tag (n + 1) ↔ ∃ p, permutation p ∈ ds ∧ Depth ds p.base n ∧ p.tag = tag := by
  constructor
  · intro h
    cases h with | permuted hp hb => exact ⟨_, hp, hb, rfl⟩
  · rintro ⟨p, hp, hb, rfl⟩
    exact .permuted hp hb

/-- **What is known after `n` rounds** are the tags of smaller depth. -/
theorem mem_known_iff_depth : tag ∈ known ds n ↔ ∃ m < n, Depth ds tag m := by
  induction n generalizing tag with
  | zero => simp [known]
  | succ n ih =>
    rw [mem_known_succ]
    constructor
    · rintro (⟨d, hd, rfl⟩ | ⟨p, hp, hb, rfl⟩)
      · exact ⟨0, Nat.succ_pos n, .plain hd⟩
      · obtain ⟨m, hm, hb⟩ := ih.mp hb
        exact ⟨m + 1, Nat.succ_lt_succ hm, .permuted hp hb⟩
    · rintro ⟨m, hm, h⟩
      cases m with
      | zero => exact Or.inl (depth_zero_iff.mp h)
      | succ m =>
        obtain ⟨p, hp, hb, ht⟩ := depth_succ_iff.mp h
        exact Or.inr ⟨p, hp, ih.mpr ⟨m, by omega, hb⟩, ht⟩

theorem Depth.unique (hn : (tags ds).Nodup) (h : Depth ds tag m) (h' : Depth ds tag n) :
    m = n := by
  have hsame : ∀ {c c'}, c ∈ ds → c' ∈ ds → c.request? = none → c'.request? = none →
      c.name = c'.name → c = c' := fun hc hc' hq hq' e =>
    eq_of_name_eq hn (mem_definitions.mpr ⟨hc, hq⟩) (mem_definitions.mpr ⟨hc', hq'⟩) e
  induction h generalizing n with
  | @plain d hd =>
    cases n with
    | zero => rfl
    | succ n =>
      obtain ⟨p, hp, -, e⟩ := depth_succ_iff.mp h'
      cases hsame hp hd rfl rfl e
  | @permuted p m hp hb ih =>
    cases n with
    | zero =>
      obtain ⟨d, hd, e⟩ := depth_zero_iff.mp h'
      cases hsame hd hp rfl rfl e
    | succ n =>
      obtain ⟨q, hq, hb', e⟩ := depth_succ_iff.mp h'
      cases hsame hq hp rfl rfl e
      rw [ih hb']

theorem exists_depth_function (hn : (tags ds).Nodup) :
    ∃ depth : String → Nat, ∀ tag n, Depth ds tag n → depth tag = n := by
  have hfun : ∀ tag, ∃ m, ∀ n, Depth ds tag n → m = n := by
    intro tag
    by_cases hex : ∃ n, Depth ds tag n
    · obtain ⟨m, hm⟩ := hex
      exact ⟨m, fun n hn' => hm.unique hn hn'⟩
    · exact ⟨0, fun n hn' => absurd ⟨n, hn'⟩ hex⟩
  choose depth hdepth using hfun
  exact ⟨depth, hdepth⟩

/-- The permutations of round `n` are those of bases of depth `n`. -/
theorem base_known_iff (hn : (tags ds).Nodup) (h : Depth ds p.base m) :
    (p.base ∈ known ds (n + 1) ∧ p.base ∉ known ds n) ↔ m = n := by
  have hknown : ∀ k, p.base ∈ known ds k ↔ m < k := by
    intro k
    rw [mem_known_iff_depth]
    constructor
    · rintro ⟨j, hj, hb⟩
      rwa [h.unique hn hb]
    · exact fun hm => ⟨m, hm, h⟩
  rw [hknown, hknown]
  omega

theorem schedule_eq_flatMap (ds : List Declaration) (n : Nat) :
    schedule ds n =
      (domains ds).map domain ++ ((List.range n).flatMap (layer ds)).map permutation := by
  induction n with
  | zero => exact (List.append_nil _).symm
  | succ n ih =>
    rw [schedule, ih, List.range_succ, List.flatMap_append, List.flatMap_singleton,
      List.map_append, List.append_assoc]

theorem map_name_order (ds : List Declaration) (n : Nat) :
    (order ds n).map name = (domains ds).map Domain.tag ++
      (((List.range n).flatMap (layer ds)).map Permutation.tag ++
        (unreached ds n).map Permutation.tag) := by
  rw [order, schedule_eq_flatMap, List.map_append, List.map_append, List.map_map, List.map_map,
    List.map_map, List.append_assoc]
  rfl

end Declaration

namespace Resolution

open Declaration

variable {ds : List Declaration} {s : Resolution} {d : Domain} {p : Permutation} {tag : String}
  {depth : String → Nat} {n : Nat}

theorem Derivable.exists_depth (h : Derivable ds tag d) : ∃ n, Depth ds tag n := by
  induction h with
  | plain hd => exact ⟨0, .plain hd⟩
  | permuted hp _ _ _ ih =>
    obtain ⟨n, hb⟩ := ih
    exact ⟨n + 1, .permuted hp hb⟩

/-- The base of a published permutation lies one permutation deeper. -/
theorem Reachable.exists_depth_base (hn : (tags ds).Nodup) (h : Reachable ds ⟨.answering [], s⟩)
    (hp : permutation p ∈ ds) (hs : s.isPublished p.tag = true) : ∃ n, Depth ds p.base n := by
  obtain ⟨d, hd⟩ := isPublished_iff.mp hs
  obtain ⟨hb, -⟩ := (h.fate hn hp).get?_eq_some_iff.mp hd
  obtain ⟨base, hbase⟩ := isPublished_iff.mp hb
  exact ((h.get?_iff_derivable hn).mp hbase).exists_depth

/-! ## The order of publication -/

theorem map_fst_filterMap_entryOf? (s : Resolution) (cs : List Declaration) :
    (cs.filterMap s.entryOf?).map Prod.fst = (cs.map name).filter s.isPublished := by
  induction cs with
  | nil => rfl
  | cons c cs ih =>
    rw [List.filterMap_cons, List.map_cons, List.filter_cons, isPublished,
      ← OrderedMap.isSome_get?, entryOf?, ← ih]
    cases s.domains.get? c.name <;> rfl

theorem Reachable.map_tag_values (h : Reachable ds ⟨.answering [], s⟩) :
    s.domains.values.map Domain.tag = s.domains.entries.map Prod.fst := by
  rw [OrderedMap.values, List.map_map]
  refine List.map_congr_left fun e he => ?_
  exact (h.sound e.1 e.2 (OrderedMap.get?_eq_some_iff.mpr he)).1

theorem Reachable.filter_layer (hn : (tags ds).Nodup) (h : Reachable ds ⟨.answering [], s⟩)
    (hdepth : ∀ tag n, Depth ds tag n → depth tag = n) (n : Nat) :
    (layer ds n).filter (fun p => s.isPublished p.tag) =
      ((permutations ds).filter fun p => s.isPublished p.tag).filter fun p =>
        depth p.tag = n + 1 := by
  rw [layer, List.filter_filter, List.filter_filter]
  refine List.filter_congr fun p hp => ?_
  cases hs : s.isPublished p.tag with
  | false => simp
  | true =>
    have hp := mem_permutations.mp hp
    obtain ⟨m, hb⟩ := h.exists_depth_base hn hp hs
    rw [Bool.true_and, Bool.and_true, decide_eq_decide, base_known_iff hn hb,
      hdepth _ _ (.permuted hp hb), Nat.succ_inj]

theorem Reachable.flatMap_filter_layer (hn : (tags ds).Nodup)
    (h : Reachable ds ⟨.answering [], s⟩) (hdepth : ∀ tag n, Depth ds tag n → depth tag = n)
    (hbound : ∀ p ∈ permutations ds, depth p.tag ≤ n) :
    ((List.range n).flatMap (layer ds)).filter (fun p => s.isPublished p.tag) =
      sortByKey (fun p => depth p.tag)
        ((permutations ds).filter fun p => s.isPublished p.tag) := by
  have hlt : ∀ p ∈ (permutations ds).filter (fun p => s.isPublished p.tag),
      depth p.tag < n + 1 := fun p hp => Nat.lt_succ_of_le (hbound p (List.mem_of_mem_filter hp))
  have hzero : ((permutations ds).filter fun p => s.isPublished p.tag).filter
      (fun p => depth p.tag = 0) = [] := by
    refine List.filter_eq_nil_iff.mpr fun p hp => ?_
    obtain ⟨hp, hs⟩ := List.mem_filter.mp hp
    have hp := mem_permutations.mp hp
    obtain ⟨m, hb⟩ := h.exists_depth_base hn hp hs
    simp [hdepth _ _ (.permuted hp hb)]
  rw [sortByKey_eq_flatMap hlt, List.range_succ_eq_map, List.flatMap_cons, hzero,
    List.nil_append, List.flatMap_map, List.filter_flatMap]
  exact List.flatMap_congr fun j _ => h.filter_layer hn hdepth j

theorem Reachable.filter_unreached_eq_nil (hn : (tags ds).Nodup)
    (h : Reachable ds ⟨.answering [], s⟩) (hdepth : ∀ tag n, Depth ds tag n → depth tag = n)
    (hbound : ∀ p ∈ permutations ds, depth p.tag ≤ n) :
    (unreached ds n).filter (fun p => s.isPublished p.tag) = [] := by
  refine List.filter_eq_nil_iff.mpr fun p hp hs => ?_
  obtain ⟨hp, hno⟩ := List.mem_filter.mp hp
  have hds := mem_permutations.mp hp
  obtain ⟨m, hb⟩ := h.exists_depth_base hn hds hs
  have hm : m + 1 ≤ n := hdepth _ _ (.permuted hds hb) ▸ hbound p hp
  exact of_decide_eq_true hno (mem_known_iff_depth.mpr ⟨m, hm, hb⟩)

/-- **The order of publication is a stable sort by depth.** If no tag is declared twice, every
published tag has one depth, the number of permutations down to its plain domain. The published
plain domains come first, in the order of the list, and then the published permutations, sorted by
depth and those of one depth in the order of the list. -/
theorem publication_sorted_by_depth (hn : (tags ds).Nodup) :
    ∃ s, ofDeclarations ds = .ok s ∧ ∃ depth : String → Nat,
      (∀ tag, s.isPublished tag = true → ∀ n, Depth ds tag n ↔ n = depth tag) ∧
      s.domains.values.map Domain.tag =
        ((domains ds).map Domain.tag).filter s.isPublished ++
          (((permutations ds).filter fun p => s.isPublished p.tag).mergeSort
            fun p q => decide (depth p.tag ≤ depth q.tag)).map Permutation.tag := by
  obtain ⟨s, hs, h⟩ := exists_reachable ds
  obtain ⟨depth, hdepth⟩ := exists_depth_function hn
  refine ⟨s, hs, depth, fun tag ht n => ?_, ?_⟩
  · obtain ⟨d, hd⟩ := isPublished_iff.mp ht
    obtain ⟨m, hm⟩ := ((h.get?_iff_derivable hn).mp hd).exists_depth
    constructor
    · exact fun hn' => (hdepth tag n hn').symm
    · rintro rfl
      rwa [hdepth tag m hm]
  · obtain ⟨n, horder⟩ := h.entries_eq_order hn
    -- as many rounds as it takes, and as many as the greatest depth
    obtain ⟨greatest, hgreatest⟩ := ((permutations ds).toFinset.image (depth ·.tag)).exists_le
    let m := n + greatest
    have hbound : ∀ p ∈ permutations ds, depth p.tag ≤ m := by
      intro p hp
      have := hgreatest _ (Finset.mem_image_of_mem _ (List.mem_toFinset.mpr hp))
      omega
    have hfilter : ∀ ps : List Permutation, (ps.map Permutation.tag).filter s.isPublished =
        (ps.filter fun p => s.isPublished p.tag).map Permutation.tag := fun ps => List.filter_map
    rw [h.map_tag_values, horder m (Nat.le_add_right n _), map_fst_filterMap_entryOf?,
      map_name_order, List.filter_append, List.filter_append, hfilter, hfilter,
      h.flatMap_filter_layer hn hdepth hbound, h.filter_unreached_eq_nil hn hdepth hbound,
      List.map_nil, List.append_nil]
    rfl

/-- The declarations come in an order of their own: a permutation of depth two in front of two of
depth one, and among them a rejected one with a permutation of it. -/
theorem publication_of_scattered_versions :
    let ds := [permutation { tag := "v3", base := "v2" }, permutation { tag := "w2", base := "v1" },
      domain { tag := "w1" },
      permutation { tag := "x2", base := "w1", sumEdits := [{ tag := "e" }] },
      permutation { tag := "x3", base := "x2" }, domain { tag := "v1" },
      permutation { tag := "v2", base := "v1" }]
    (tags ds).Nodup ∧
      ∃ s, ofDeclarations ds = .ok s ∧ ∃ depth : String → Nat,
        (∀ tag, s.isPublished tag = true → ∀ n, Depth ds tag n ↔ n = depth tag) ∧
        s.domains.values.map Domain.tag = ["w1", "v1", "w2", "v2", "v3"] ∧
        s.domains.values.map Domain.tag =
          ((domains ds).map Domain.tag).filter s.isPublished ++
            (((permutations ds).filter fun p => s.isPublished p.tag).mergeSort
              fun p q => decide (depth p.tag ≤ depth q.tag)).map Permutation.tag := by
  intro ds
  have hn : (tags ds).Nodup := by decide
  have hv : (ofDeclarations ds).map (fun s => s.domains.values.map Domain.tag) =
      .ok ["w1", "v1", "w2", "v2", "v3"] := by
    decide +kernel
  obtain ⟨s, hs, depth, hdepth, hsorted⟩ := publication_sorted_by_depth hn
  rw [hs] at hv
  injection hv with hv
  exact ⟨hn, s, hs, depth, hdepth, hv, hsorted⟩

end Resolution

end VersionedTypes
