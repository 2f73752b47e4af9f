import VersionedTypes.Proofs.Lists

/-!
# Lists sorted by a number

A stable sort by a number puts the members with the smallest number first, and leaves those with one
number in the order of the list. So it is the list gone through once for each number.

* `sortByKey`, `pairwise_sortByKey`, `filter_sortByKey`: what a stable sort is;
* `eq_flatMap_filter_key`: a sorted list, number by number;
* **`sortByKey_eq_flatMap`**: a stable sort, number by number.
-/

namespace VersionedTypes

variable {α : Type} {key : α → Nat} {xs : List α} {n k : Nat}

/-- The list sorted by a number, the members with one number in the order of the list. -/
def sortByKey (key : α → Nat) (xs : List α) : List α :=
  xs.mergeSort fun x y => decide (key x ≤ key y)

theorem decide_key_le_trans (key : α → Nat) (x y z : α) (hxy : decide (key x ≤ key y) = true)
    (hyz : decide (key y ≤ key z) = true) : decide (key x ≤ key z) = true := by
  simp only [decide_eq_true_eq] at hxy hyz ⊢
  omega

theorem decide_key_le_total (key : α → Nat) (x y : α) :
    (decide (key x ≤ key y) || decide (key y ≤ key x)) = true := by
  simpa using Nat.le_total (key x) (key y)

theorem pairwise_sortByKey (key : α → Nat) (xs : List α) :
    (sortByKey key xs).Pairwise fun x y => key x ≤ key y :=
  (List.pairwise_mergeSort (decide_key_le_trans key) (decide_key_le_total key) xs).imp
    of_decide_eq_true

theorem filter_sortByKey : (sortByKey key xs).filter (key · = k) = xs.filter (key · = k) := by
  have hsub : (xs.filter (key · = k)).Sublist (sortByKey key xs) := by
    refine List.sublist_mergeSort (decide_key_le_trans key) (decide_key_le_total key) ?_
      List.filter_sublist
    refine List.pairwise_of_forall_mem_list fun x hx y hy => ?_
    simp only [List.mem_filter, decide_eq_true_eq] at hx hy
    simp [hx.2, hy.2]
  have hfilter := hsub.filter (key · = k)
  rw [List.filter_filter] at hfilter
  simp only [Bool.and_self] at hfilter
  exact (hfilter.eq_of_length ((List.mergeSort_perm xs _).filter _).length_eq.symm).symm

theorem eq_append_filter_key (hs : xs.Pairwise fun x y => key x ≤ key y)
    (h : ∀ x ∈ xs, key x < n + 1) :
    xs = xs.filter (key · < n) ++ xs.filter (key · = n) := by
  induction xs with
  | nil => rfl
  | cons x xs ih =>
    rw [List.pairwise_cons] at hs
    obtain ⟨hx, hxs⟩ := List.forall_mem_cons.mp h
    by_cases hlt : key x < n
    · have hne : key x ≠ n := by omega
      rw [List.filter_cons_of_pos (by simpa using hlt),
        List.filter_cons_of_neg (by simpa using hne)]
      exact congrArg (x :: ·) (ih hs.2 hxs)
    · -- from here on all numbers are `n`
      have hall : ∀ y ∈ x :: xs, key y = n := by
        intro y hy
        have hy' := h y hy
        rcases List.mem_cons.mp hy with rfl | hy
        · omega
        · have := hs.1 y hy
          omega
      have hnone : (x :: xs).filter (key · < n) = [] := by
        refine List.filter_eq_nil_iff.mpr fun y hy => ?_
        simp [hall y hy]
      rw [hnone, List.nil_append, List.filter_eq_self.mpr fun y hy => by simpa using hall y hy]

theorem eq_flatMap_filter_key (hs : xs.Pairwise fun x y => key x ≤ key y)
    (h : ∀ x ∈ xs, key x < n) : xs = (List.range n).flatMap fun k => xs.filter (key · = k) := by
  induction n generalizing xs with
  | zero => exact List.eq_nil_iff_forall_not_mem.mpr fun x hx => absurd (h x hx) (Nat.not_lt_zero _)
  | succ n ih =>
    have hlt : ∀ x ∈ xs.filter (key · < n), key x < n :=
      fun x hx => of_decide_eq_true (List.mem_filter.mp hx).2
    have hfront := ih (hs.filter (key · < n)) hlt
    have hkeys : ∀ k ∈ List.range n,
        (xs.filter (key · < n)).filter (key · = k) = xs.filter (key · = k) := by
      intro k hk
      rw [List.mem_range] at hk
      rw [List.filter_filter]
      refine List.filter_congr fun x _ => ?_
      rw [Bool.eq_iff_iff, Bool.and_eq_true, decide_eq_true_eq, decide_eq_true_eq]
      omega
    rw [List.flatMap_congr hkeys] at hfront
    rw [List.range_succ, List.flatMap_append, ← hfront, List.flatMap_singleton]
    exact eq_append_filter_key hs h

/-- **A stable sort goes through the numbers in order**, and through the members with one number in
the order of the list. -/
theorem sortByKey_eq_flatMap (h : ∀ x ∈ xs, key x < n) :
    sortByKey key xs = (List.range n).flatMap fun k => xs.filter (key · = k) := by
  have hs := eq_flatMap_filter_key (pairwise_sortByKey key xs)
    fun x hx => h x (List.mem_mergeSort.mp hx)
  simpa only [filter_sortByKey] using hs

end VersionedTypes
