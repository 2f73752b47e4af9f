import VersionedTypes.Proofs.Resolution.Completeness
import VersionedTypes.Proofs.Resolution.Meaning

/-!
# The order of a resolution

Round by round a resolution applies the permutations of what it has just come to know. So the order
in which declarations are decided can be read off the list: first the plain domains, then the
permutations of these, then the permutations of those, each in the order of the list, and at last
the permutations that nothing leads to.

* `Declaration.known`, `Declaration.layer`: what is known after some rounds, and what is new in the
  next one;
* `Declaration.schedule`, `Declaration.order`: the declarations in the order of work;
* `Declaration.order_eq_of_le`: once a round has nothing to do, no later one has;
* `Config.Layered`, **`Reachable.decided_eq`**: declarations are decided in this order;
* **`Reachable.entries_eq_order`**: so domains are published in this order.
-/

namespace VersionedTypes

/-! ## Rounds -/

namespace Declaration

variable {ds : List Declaration} {c : Declaration} {p : Permutation} {tag : String} {m n : Nat}

/-- The tags that are known after some rounds: those of plain domains after the first, and from then
on those of the permutations of what was known a round before. -/
def known (ds : List Declaration) : Nat → List String
  | 0 => []
  | n + 1 =>
    (domains ds).map Domain.tag ++
      ((permutations ds).filter fun p => p.base ∈ known ds n).map Permutation.tag

/-- The permutations of what is new in round `n`. -/
def layer (ds : List Declaration) (n : Nat) : List Permutation :=
  (permutations ds).filter fun p => p.base ∈ known ds (n + 1) ∧ p.base ∉ known ds n

/-- The plain domains and the permutations of the first `n` rounds. -/
def schedule (ds : List Declaration) : Nat → List Declaration
  | 0 => (domains ds).map domain
  | n + 1 => schedule ds n ++ (layer ds n).map permutation

/-- The permutations that wait after `n` rounds. -/
def unreached (ds : List Declaration) (n : Nat) : List Permutation :=
  (permutations ds).filter fun p => p.base ∉ known ds n

/-- The plain domains and all permutations, those that wait after `n` rounds at the end. -/
def order (ds : List Declaration) (n : Nat) : List Declaration :=
  schedule ds n ++ (unreached ds n).map permutation

theorem mem_known_succ :
    tag ∈ known ds (n + 1) ↔ (∃ d, domain d ∈ ds ∧ d.tag = tag) ∨
      ∃ p, permutation p ∈ ds ∧ p.base ∈ known ds n ∧ p.tag = tag := by
  rw [known, List.mem_append, List.mem_map, List.mem_map]
  simp only [List.mem_filter, decide_eq_true_eq, mem_domains, mem_permutations, and_assoc]

theorem known_succ_of_known (h : tag ∈ known ds n) : tag ∈ known ds (n + 1) := by
  induction n generalizing tag with
  | zero => cases h
  | succ n ih =>
    refine mem_known_succ.mpr ((mem_known_succ.mp h).imp_right ?_)
    rintro ⟨p, hp, hb, ht⟩
    exact ⟨p, hp, ih hb, ht⟩

theorem known_mono (hmn : m ≤ n) (h : tag ∈ known ds m) : tag ∈ known ds n := by
  induction hmn with
  | refl => exact h
  | step _ ih => exact known_succ_of_known ih

theorem mem_schedule :
    c ∈ schedule ds n ↔ (∃ d, domain d ∈ ds ∧ domain d = c) ∨
      ∃ p, permutation p ∈ ds ∧ p.base ∈ known ds n ∧ permutation p = c := by
  induction n with
  | zero => simp [schedule, known, mem_domains]
  | succ n ih =>
    rw [schedule, List.mem_append, ih, List.mem_map, or_assoc]
    refine or_congr Iff.rfl ⟨?_, ?_⟩
    · rintro (⟨p, hp, hb, rfl⟩ | ⟨p, hp, rfl⟩)
      · exact ⟨p, hp, known_succ_of_known hb, rfl⟩
      · obtain ⟨hp, hb⟩ := List.mem_filter.mp hp
        exact ⟨p, mem_permutations.mp hp, (of_decide_eq_true hb).1, rfl⟩
    · rintro ⟨p, hp, hb, rfl⟩
      by_cases hn : p.base ∈ known ds n
      · exact Or.inl ⟨p, hp, hn, rfl⟩
      · exact Or.inr ⟨p, List.mem_filter.mpr ⟨mem_permutations.mpr hp, by simp [hb, hn]⟩, rfl⟩

/-- After `n` rounds the tags of the declarations so far are known. -/
theorem exists_mem_schedule_iff : (∃ c ∈ schedule ds n, c.name = tag) ↔ tag ∈ known ds (n + 1) := by
  rw [mem_known_succ]
  constructor
  · rintro ⟨c, hc, rfl⟩
    rcases mem_schedule.mp hc with ⟨d, hd, rfl⟩ | ⟨p, hp, hb, rfl⟩
    · exact Or.inl ⟨d, hd, rfl⟩
    · exact Or.inr ⟨p, hp, hb, rfl⟩
  · rintro (⟨d, hd, rfl⟩ | ⟨p, hp, hb, rfl⟩)
    · exact ⟨_, mem_schedule.mpr (Or.inl ⟨d, hd, rfl⟩), rfl⟩
    · exact ⟨_, mem_schedule.mpr (Or.inr ⟨p, hp, hb, rfl⟩), rfl⟩

theorem mem_order : c ∈ order ds n ↔ c ∈ definitions ds := by
  rw [order, List.mem_append, mem_schedule, definitions, List.mem_append, List.mem_map,
    List.mem_map, List.mem_map]
  simp only [unreached, List.mem_filter, decide_eq_true_eq, mem_domains, mem_permutations]
  rw [or_assoc, ← exists_or]
  refine or_congr Iff.rfl (exists_congr fun p => ?_)
  by_cases hb : p.base ∈ known ds n <;> simp [hb]

/-! ## Later rounds -/

theorem known_of_layer_eq_nil (h : layer ds n = []) (hp : permutation p ∈ ds) (hmn : n ≤ m)
    (hb : p.base ∈ known ds m) : p.base ∈ known ds n := by
  have hnext : ∀ {p}, permutation p ∈ ds → p.base ∈ known ds (n + 1) → p.base ∈ known ds n := by
    intro p hp hb
    by_contra hn
    have : p ∈ layer ds n := List.mem_filter.mpr ⟨mem_permutations.mpr hp, by simp [hb, hn]⟩
    rw [h] at this
    cases this
  induction hmn generalizing p with
  | refl => exact hb
  | step _ ih =>
    -- the base is known after round `n`, since it is a permutation of what was known before
    refine hnext hp (mem_known_succ.mpr ((mem_known_succ.mp hb).imp_right ?_))
    rintro ⟨q, hq, hqb, ht⟩
    exact ⟨q, hq, ih hq hqb, ht⟩

theorem order_eq_of_le (h : layer ds n = []) (hmn : n ≤ m) : order ds m = order ds n := by
  have hknown : ∀ {k}, n ≤ k → ∀ p ∈ permutations ds, (p.base ∈ known ds k ↔ p.base ∈ known ds n) :=
    fun hk p hp => ⟨known_of_layer_eq_nil h (mem_permutations.mp hp) hk, known_mono hk⟩
  have hunreached : unreached ds m = unreached ds n :=
    List.filter_congr fun p hp => decide_eq_decide.mpr (not_congr (hknown hmn p hp))
  have hschedule : schedule ds m = schedule ds n := by
    clear hunreached
    induction hmn with
    | refl => rfl
    | @step k hk ih =>
      have hlayer : layer ds k = [] := by
        refine List.filter_eq_nil_iff.mpr fun p hp => ?_
        rw [decide_eq_true_eq, hknown hk p hp, hknown (Nat.le_succ_of_le hk) p hp]
        exact fun hb => hb.2 hb.1
      rw [schedule, hlayer, ih]
      exact List.append_nil _
  rw [order, order, hschedule, hunreached]

end Declaration

namespace Resolution

open Declaration

variable {ds : List Declaration} {k k' : Config} {s : Resolution} {r : Record} {tag : String}
  {n : Nat}

/-! ## Declarations are decided in this order -/

/-- The declarations that are decided and those that follow stand in the order of work. -/
def Config.Layered (ds : List Declaration) : Config → Prop
  | ⟨.reading _, _⟩ => True
  | ⟨.applying ready waiting, s⟩ => ∃ n,
    s.decided ++ ready.map permutation = schedule ds n ∧ waiting = unreached ds n
  | ⟨.stranding _ rest, s⟩ => ∃ n, layer ds n = [] ∧
    s.decided ++ rest.map permutation = order ds n
  | ⟨.answering rest, s⟩ => ∃ n done, layer ds n = [] ∧ done ++ rest = requests ds ∧
    s.decided = order ds n ++ done.map transform

theorem Reachable.isSettled_iff_known (h : Reachable ds k) (hd : k.state.decided = schedule ds n) :
    k.state.isSettled tag = true ↔ tag ∈ known ds (n + 1) := by
  rw [h.isSettled_iff_exists, ← exists_mem_schedule_iff]
  constructor
  · rintro ⟨⟨c, o⟩, hr, rfl⟩
    obtain ⟨hr, ho, -⟩ := mem_plainRecords.mp hr
    exact ⟨c, hd ▸ mem_decided.mpr ⟨o, hr, ho⟩, rfl⟩
  · rintro ⟨c, hc, rfl⟩
    have hq : c.request? = none := by
      rcases mem_schedule.mp hc with ⟨d, -, rfl⟩ | ⟨p, -, -, rfl⟩ <;> rfl
    obtain ⟨o, hr, ho⟩ := mem_decided.mp (hd ▸ hc)
    exact ⟨⟨c, o⟩, mem_plainRecords.mpr ⟨hr, ho, hq⟩, rfl⟩

theorem Step.layered (hr : Reachable ds k) (hk : k.Layered ds) (h : Step ds k k') :
    k'.Layered ds := by
  cases h with
  | declare => trivial
  | start s =>
    obtain ⟨read, hread, hd⟩ := hr.accounted
    rw [List.append_nil] at hread
    refine ⟨0, ?_, (List.filter_eq_self.mpr fun p _ => by simp [known]).symm⟩
    exact (List.append_nil _).trans (hread ▸ hd)
  | derive h =>
    obtain ⟨n, hd, hw⟩ := hk
    obtain ⟨o, ho, he⟩ := derive_event (hr.poised _ List.mem_cons_self) h
    refine ⟨n, ?_, hw⟩
    rw [he.decided_of_stage (by omega), List.append_assoc]
    exact hd
  | @round ws s _ =>
    obtain ⟨n, hd, rfl⟩ := hk
    have hd : s.decided = schedule ds n := (List.append_nil _).symm.trans hd
    have hs : ∀ tag, s.isSettled tag = decide (tag ∈ known ds (n + 1)) := fun tag => by
      rw [Bool.eq_iff_iff, decide_eq_true_eq]
      exact hr.isSettled_iff_known hd
    have hready : s.ready (unreached ds n) = layer ds n := by
      simp [ready, unreached, layer, List.filter_filter, hs]
    refine ⟨n + 1, by rw [hready, schedule, hd], ?_⟩
    rw [waiting, unreached, List.filter_filter]
    refine List.filter_congr fun p _ => ?_
    rw [hs, Bool.eq_iff_iff, Bool.and_eq_true, Bool.not_eq_true', decide_eq_false_iff_not,
      decide_eq_true_eq, decide_eq_true_eq]
    exact ⟨And.left, fun hb => ⟨hb, mt known_succ_of_known hb⟩⟩
  | @stuck ws s hw =>
    obtain ⟨n, hd, rfl⟩ := hk
    have hd : s.decided = schedule ds n := (List.append_nil _).symm.trans hd
    refine ⟨n, List.filter_eq_nil_iff.mpr fun p hp hb => ?_, by rw [order, hd]⟩
    obtain ⟨hknown, hb⟩ := of_decide_eq_true hb
    have hopen := ready_isEmpty_iff.mp hw p (List.mem_filter.mpr ⟨hp, decide_eq_true hb⟩)
    rw [(hr.isSettled_iff_known hd).mpr hknown] at hopen
    cases hopen
  | strand l p ps s =>
    obtain ⟨n, hn, hd⟩ := hk
    obtain ⟨o, ho, he⟩ := strandOne_event l (hr.poised p List.mem_cons_self)
    refine ⟨n, hn, ?_⟩
    rw [he.decided_of_stage (by omega), List.append_assoc]
    exact hd
  | finish l s =>
    obtain ⟨n, hn, hd⟩ := hk
    have hd : s.decided ++ [] = order ds n := hd
    exact ⟨n, [], hn, rfl, by rw [← hd]; simp⟩
  | answer r rs s =>
    obtain ⟨n, done, hn, hdone, hd⟩ := hk
    obtain ⟨o, ho, he⟩ := answer_event s r
    refine ⟨n, done ++ [r], hn, by rw [← hdone]; simp, ?_⟩
    rw [he.decided_of_stage (by omega), hd, List.append_assoc, List.map_append]
    rfl

theorem Reachable.layered (h : Reachable ds k) : k.Layered ds := by
  induction h with
  | refl => trivial
  | tail hr hstep ih => exact hstep.layered hr ih

/-- **Declarations are decided in the order of work**, and the requests after them. -/
theorem Reachable.decided_eq (h : Reachable ds ⟨.answering [], s⟩) :
    ∃ n, layer ds n = [] ∧ s.decided = order ds n ++ (requests ds).map transform := by
  obtain ⟨n, done, hn, hdone, hd⟩ := h.layered
  rw [List.append_nil] at hdone
  exact ⟨n, hn, hdone ▸ hd⟩

/-! ## Domains are published in this order -/

/-- The entry under the tag of a declaration. -/
def entryOf? (s : Resolution) (c : Declaration) : Option (String × Domain) :=
  (s.domains.get? c.name).map fun d => (c.name, d)

theorem Reachable.publication?_eq (hn : (tags ds).Nodup) (h : Reachable ds ⟨.answering [], s⟩)
    (hr : r ∈ s.plainRecords) : r.publication? = s.entryOf? r.declaration := by
  rw [Record.publication?, entryOf?]
  congr 1
  ext d
  constructor
  · intro hd
    rw [OrderedMap.get?_eq_some_iff, h.entries_eq]
    exact List.mem_filterMap.mpr ⟨r, hr, by rw [Record.publication?, hd]; rfl⟩
  · -- another record of this tag would be the same one
    intro hd
    obtain ⟨r', hr', hname, ho⟩ := h.exists_of_get? hd
    rwa [h.record_eq hn hr hr' hname.symm]

/-- **Domains are published in the order of work**: whatever number of rounds is allowed for, from
some number on. -/
theorem Reachable.entries_eq_order (hn : (tags ds).Nodup) (h : Reachable ds ⟨.answering [], s⟩) :
    ∃ n, ∀ m, n ≤ m → s.domains.entries = (order ds m).filterMap s.entryOf? := by
  obtain ⟨n, hlayer, hd⟩ := h.decided_eq
  refine ⟨n, fun m hm => ?_⟩
  have hplain : s.plainRecords.map Record.declaration = order ds n := by
    have horder : (order ds n).filter (fun c => c.request?.isNone) = order ds n :=
      List.filter_eq_self.mpr fun c hc =>
        Option.isNone_iff_eq_none.mpr (mem_definitions.mp (mem_order.mp hc)).2
    have hrequests : ((requests ds).map transform).filter (fun c => c.request?.isNone) = [] := by
      rw [List.filter_map, List.map_eq_nil_iff, List.filter_eq_nil_iff]
      exact fun r _ => Bool.false_ne_true
    have := congrArg (List.filter fun c => c.request?.isNone) hd
    rw [List.filter_append, horder, hrequests, List.append_nil, decided, List.filter_map] at this
    exact this
  rw [h.entries_eq, order_eq_of_le hlayer hm, ← hplain, List.filterMap_map]
  exact List.filterMap_congr fun r hr => h.publication?_eq hn hr

end Resolution

end VersionedTypes
