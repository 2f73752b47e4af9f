import Mathlib.Data.Nat.Find
import Mathlib.Data.Set.Finite.Basic
import Mathlib.Logic.Function.Iterate
import Mathlib.Logic.Relation
import Mathlib.Order.WellFounded
import VersionedTypes.Proofs.Ordered
import VersionedTypes.Universe.Resolution

/-!
# Links and circles

Each permutation links its tag to its base. Following the links from a tag, as often as there are
links, finds out whether they lead back to it.

* `Next`: one link of a table;
* **`leadsTo_size_iff`**: the bounded search finds every circle;
* `lastBase`, `get?_links`: the links of a list of permutations, the last one of a tag counting;
* `exists_iterate_iff`: going round a circle is to follow the links for some number of steps;
* **`isUnfounded_iff`**: a permutation is unfounded when its base is the tag of none that wait, or
  when its links come back to it;
* **`exists_isUnfounded_of_mem`**: the links lead from every permutation that waits to an unfounded
  one, so among permutations that wait one is always unfounded (`exists_isUnfounded`).
-/

namespace VersionedTypes

namespace Resolution

open Relation

variable {l : OrderedMap String} {tag a b : String} {m n : Nat} {pending : List Permutation}

/-- The table links `a` to `b`. -/
def Next (l : OrderedMap String) (a b : String) : Prop := l.get? a = some b

/-! ## The bounded search -/

theorem leadsTo_succ_iff :
    leadsTo l tag (n + 1) a = true ↔ ∃ b, Next l a b ∧ (b = tag ∨ leadsTo l tag n b = true) := by
  unfold Next
  rw [leadsTo]
  cases l.get? a <;> simp

theorem leadsTo_mono (h : m ≤ n) (hm : leadsTo l tag m a = true) : leadsTo l tag n a = true := by
  induction m generalizing n a with
  | zero => cases hm
  | succ m ih =>
    obtain ⟨n, rfl⟩ : ∃ n', n = n' + 1 := ⟨n - 1, by omega⟩
    obtain ⟨b, hb, hm⟩ := leadsTo_succ_iff.mp hm
    exact leadsTo_succ_iff.mpr ⟨b, hb, hm.imp_right (ih (by omega))⟩

theorem transGen_of_leadsTo (h : leadsTo l tag n a = true) : TransGen (Next l) a tag := by
  induction n generalizing a with
  | zero => cases h
  | succ n ih =>
    obtain ⟨b, hb, rfl | h⟩ := leadsTo_succ_iff.mp h
    · exact .single hb
    · exact .head hb (ih h)

theorem exists_leadsTo_of_transGen (h : TransGen (Next l) a tag) :
    ∃ n, leadsTo l tag n a = true := by
  induction h using TransGen.head_induction_on with
  | single hb => exact ⟨1, leadsTo_succ_iff.mpr ⟨tag, hb, Or.inl rfl⟩⟩
  | head hb _ ih =>
    obtain ⟨n, hn⟩ := ih
    exact ⟨n + 1, leadsTo_succ_iff.mpr ⟨_, hb, Or.inr hn⟩⟩

/-- If the search needs `n + 1` steps, then for every smaller number of steps some key needs
exactly so many. -/
theorem exists_key_of_distance (h : leadsTo l tag (n + 1) a = true)
    (hn : leadsTo l tag n a = false) :
    ∀ k ≤ n, ∃ x ∈ l.keys, leadsTo l tag (k + 1) x = true ∧ leadsTo l tag k x = false := by
  induction n generalizing a with
  | zero =>
    intro k hk
    obtain rfl : k = 0 := by omega
    obtain ⟨b, hb, -⟩ := leadsTo_succ_iff.mp h
    refine ⟨a, ?_, h, hn⟩
    by_contra hx
    rw [Next, OrderedMap.get?_eq_none_iff.mpr hx] at hb
    cases hb
  | succ n ih =>
    intro k hk
    obtain ⟨b, hb, hb'⟩ := leadsTo_succ_iff.mp h
    rw [← Bool.not_eq_true, leadsTo_succ_iff] at hn
    have ht : b ≠ tag := fun e => hn ⟨b, hb, Or.inl e⟩
    have hbn : leadsTo l tag n b = false := by
      rw [← Bool.not_eq_true]; exact fun e => hn ⟨b, hb, Or.inr e⟩
    rcases Nat.lt_or_eq_of_le hk with hk | rfl
    · exact ih (hb'.resolve_left ht) hbn k (by omega)
    · refine ⟨a, ?_, h, by rw [← Bool.not_eq_true, leadsTo_succ_iff]; exact hn⟩
      by_contra hx
      rw [Next, OrderedMap.get?_eq_none_iff.mpr hx] at hb
      cases hb

/-- Different numbers of steps need different keys, so no search needs more steps than there are
keys. -/
theorem lt_size_of_distance (h : leadsTo l tag (n + 1) a = true)
    (hn : leadsTo l tag n a = false) : n < l.size := by
  choose! f hf using exists_key_of_distance h hn
  have hinj : Set.InjOn f (Finset.range (n + 1)) := by
    intro i hi j hj e
    have hi := Finset.mem_range.mp hi
    have hj := Finset.mem_range.mp hj
    by_contra hne
    -- a key of two distances would have been reached within the smaller one
    rcases Nat.lt_or_gt_of_ne hne with hlt | hlt
    · have := leadsTo_mono hlt (e ▸ (hf i (by omega)).2.1)
      rw [(hf j (by omega)).2.2] at this
      cases this
    · have := leadsTo_mono hlt (e.symm ▸ (hf j (by omega)).2.1)
      rw [(hf i (by omega)).2.2] at this
      cases this
  have hmem : ∀ i ∈ Finset.range (n + 1), f i ∈ l.keys.toFinset := fun i hi =>
    List.mem_toFinset.mpr (hf i (Nat.lt_succ_iff.mp (Finset.mem_range.mp hi))).1
  have hc := Finset.card_le_card_of_injOn f hmem hinj
  rw [Finset.card_range] at hc
  have hk : l.keys.length = l.size := List.length_map _
  exact hk ▸ Nat.lt_of_lt_of_le hc (List.toFinset_card_le _)

/-- **The bounded search is complete**: as many steps as there are links suffice. -/
theorem leadsTo_size_iff : leadsTo l tag l.size a = true ↔ TransGen (Next l) a tag := by
  refine ⟨transGen_of_leadsTo, fun h => ?_⟩
  have hex := exists_leadsTo_of_transGen h
  have hmin := Nat.find_spec hex
  cases hd : Nat.find hex with
  | zero => rw [hd] at hmin; cases hmin
  | succ n =>
    rw [hd] at hmin
    have hn : leadsTo l tag n a = false := by
      rw [← Bool.not_eq_true]; exact Nat.find_min hex (by omega)
    exact leadsTo_mono (lt_size_of_distance hmin hn) hmin

/-! ## The links of a list of permutations -/

/-- The base of the last permutation of this tag. -/
def lastBase (pending : List Permutation) (tag : String) : Option String :=
  (pending.reverse.find? (·.tag == tag)).map Permutation.base

theorem get?_links : (links pending).get? tag = lastBase pending tag := by
  rw [links, OrderedMap.get?_ofList, ← List.map_reverse, List.find?_map, Option.map_map]
  rfl

theorem mem_keys_links : tag ∈ (links pending).keys ↔ ∃ p ∈ pending, p.tag = tag := by
  rw [links, OrderedMap.mem_keys_ofList, List.map_map, List.mem_map]
  rfl

theorem exists_of_next_links (h : Next (links pending) a b) :
    ∃ p ∈ pending, p.tag = a ∧ p.base = b := by
  obtain ⟨p, hp, e⟩ := List.mem_map.mp (OrderedMap.mem_of_get?_ofList h)
  cases e
  exact ⟨p, hp, rfl, rfl⟩

/-- **A permutation is unfounded** when none that waits has the tag of its base, or when its links
come back to it. -/
theorem isUnfounded_iff {p : Permutation} :
    isUnfounded (links pending) p = true ↔
      (∀ q ∈ pending, q.tag ≠ p.base) ∨ TransGen (Next (links pending)) p.tag p.tag := by
  rw [isUnfounded, Bool.or_eq_true, leadsTo_size_iff, Bool.not_eq_true', ← Bool.not_eq_true,
    OrderedMap.contains_iff, mem_keys_links]
  simp only [not_exists, not_and, ne_eq]

theorem exists_iterate_iff {α : Type} {f : α → Option α} {x y : α} :
    (∃ n, 0 < n ∧ (fun z : Option α => z.bind f)^[n] (some x) = some y) ↔
      TransGen (fun x y => f x = some y) x y := by
  constructor
  · rintro ⟨n, hn, h⟩
    obtain ⟨n, rfl⟩ : ∃ m, n = m + 1 := ⟨n - 1, by omega⟩
    clear hn
    induction n generalizing y with
    | zero => exact .single h
    | succ n ih =>
      rw [Function.iterate_succ_apply'] at h
      obtain ⟨z, hz, hy⟩ := Option.bind_eq_some_iff.mp h
      exact (ih hz).tail hy
  · intro h
    induction h with
    | single h => exact ⟨1, Nat.one_pos, h⟩
    | tail _ hstep ih =>
      obtain ⟨n, -, hn⟩ := ih
      refine ⟨n + 1, Nat.succ_pos n, ?_⟩
      rw [Function.iterate_succ_apply', hn]
      exact hstep

/-- A relation that never leaves a list of names comes back somewhere in it: otherwise it would go
down forever in a finite set. -/
theorem exists_transGen_self {r : String → String → Prop} {xs : List String} (hne : xs ≠ [])
    (h : ∀ x ∈ xs, ∃ y ∈ xs, r x y) : ∃ x ∈ xs, TransGen r x x := by
  by_contra hno
  have hfin : Finite {x // x ∈ xs} := (List.finite_toSet xs).to_subtype
  have htrans : IsTrans {x // x ∈ xs} fun x y => TransGen r y.1 x.1 :=
    ⟨fun _ _ _ hxy hyz => hyz.trans hxy⟩
  have hirrefl : Std.Irrefl fun x y : {x // x ∈ xs} => TransGen r y.1 x.1 :=
    ⟨fun x hx => hno ⟨x.1, x.2, hx⟩⟩
  have hwf := Finite.wellFounded_of_trans_of_irrefl fun x y : {x // x ∈ xs} => TransGen r y.1 x.1
  obtain ⟨a, ha⟩ := List.exists_mem_of_ne_nil _ hne
  obtain ⟨x, -, hx⟩ := hwf.has_min Set.univ ⟨⟨a, ha⟩, trivial⟩
  obtain ⟨y, hy, hxy⟩ := h x.1 x.2
  exact hx ⟨y, hy⟩ trivial (.single hxy)

/-- **The links lead from every permutation that waits to an unfounded one**: if the base of each on
the way were the tag of one that waits, the links would come back. -/
theorem exists_isUnfounded_of_mem {p : Permutation} (hp : p ∈ pending) :
    ∃ q ∈ pending, isUnfounded (links pending) q = true ∧
      ReflTransGen (Next (links pending)) p.tag q.tag := by
  classical
  by_contra hno
  push Not at hno
  -- the tags that the links lead to from `p`
  let xs := (links pending).keys.filter fun x => ReflTransGen (Next (links pending)) p.tag x
  have hxs : ∀ {x}, x ∈ xs ↔
      (∃ q ∈ pending, q.tag = x) ∧ ReflTransGen (Next (links pending)) p.tag x := by
    intro x
    rw [List.mem_filter, mem_keys_links, decide_eq_true_eq]
  have hne : xs ≠ [] := List.ne_nil_of_mem (hxs.mpr ⟨⟨p, hp, rfl⟩, .refl⟩)
  obtain ⟨x, hx, hxx⟩ := exists_transGen_self (r := Next (links pending)) hne fun x hx => by
    obtain ⟨hk, hpx⟩ := hxs.mp hx
    cases hb : (links pending).get? x with
    | none => exact absurd (mem_keys_links.mpr hk) (OrderedMap.get?_eq_none_iff.mp hb)
    | some b =>
      obtain ⟨q, hq, rfl, rfl⟩ := exists_of_next_links hb
      have hu := mt isUnfounded_iff.mpr (hno q hq · hpx)
      rw [not_or] at hu
      obtain ⟨q', hq', e⟩ : ∃ q' ∈ pending, q'.tag = q.base := by simpa using hu.1
      exact ⟨q.base, hxs.mpr ⟨⟨q', hq', e⟩, hpx.tail hb⟩, hb⟩
  obtain ⟨⟨q, hq, rfl⟩, hpq⟩ := hxs.mp hx
  exact hno q hq (isUnfounded_iff.mpr (Or.inr hxx)) hpq

/-- **Some permutation is unfounded** among any that wait. -/
theorem exists_isUnfounded (h : pending ≠ []) :
    ∃ p ∈ pending, isUnfounded (links pending) p = true := by
  obtain ⟨p, hp⟩ := List.exists_mem_of_ne_nil _ h
  obtain ⟨q, hq, hu, -⟩ := exists_isUnfounded_of_mem hp
  exact ⟨q, hq, hu⟩

end Resolution

end VersionedTypes
