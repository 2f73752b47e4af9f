import Mathlib.Data.List.Forall2
import Mathlib.Data.List.Induction
import Mathlib.Data.List.Nodup

/-!
# Lists with distinct keys, lists whose members pass in turn, and interleaved lists

A list whose members have distinct keys has at most one member of each key, so the first member of
a key is all there is of it. A list that is worked through from its first member to its last passes
in turn when every member passes a test that may depend on the members in front of it.

* `find?_key_of_mem`, `find?_key_eq_none_iff`, `find?_key_map`, `rel_find?_key`,
  `find?_key_of_perm`, `countP_key`, `two_le_countP_key`, `eraseP_key_eq_filter`,
  `eraseP_key_append_of_mem`, `exists_split_of_mem_key`: looking up, counting, erasing and finding
  the place by a key;
* `InTurn`, `inTurn_concat`: every member passes, given those in front of it;
* **`inTurn_or_first`**: a list passes in turn, or it has a first member that does not pass;
* **`foldlM_of_inTurn`**, `foldlM_of_first`, `foldlM_ne_error`: the run of a step that can fail;
* `map_eq_ok_iff`, `map_eq_error_iff`: what a mapped result comes from;
* `foldlM_map_mapError_of_comm`, `foldlM_map_of_comm`: a run that goes along with maps of what it
  works on;
* `mapM_eq_ok`, `mapM_eq_ok_of_mem`, `exists_mapM_eq_ok`: maps that do not fail; `mapM_of_first`:
  the first failure;
* `map_eq_self_iff`: maps that change nothing;
* `Interleaving`: a list that two others make up, each in its order.
-/

namespace VersionedTypes

/-! ## Distinct keys -/

section Keys

variable {α : Type} {key : α → String} {xs : List α} {x : α} {k : String}

theorem find?_key_eq_none_iff : xs.find? (key · == k) = none ↔ k ∉ xs.map key := by
  simp [List.find?_eq_none]

theorem find?_key_of_mem (hn : (xs.map key).Nodup) (hx : x ∈ xs) :
    xs.find? (key · == key x) = some x := by
  cases h : xs.find? (key · == key x) with
  | none => exact absurd (List.mem_map_of_mem hx) (find?_key_eq_none_iff.mp h)
  | some y =>
    have hy : key y = key x := by simpa using List.find?_some h
    rw [List.inj_on_of_nodup_map hn (List.mem_of_find?_eq_some h) hx hy]

theorem find?_key_map {β : Type} {f : α → β} {key' : β → String} (hf : ∀ x, key' (f x) = key x) :
    (xs.map f).find? (key' · == k) = (xs.find? (key · == k)).map f := by
  have hkey : ((key' · == k) ∘ f) = (key · == k) := by
    funext x
    rw [Function.comp_apply, hf]
  rw [List.find?_map, hkey]

theorem rel_find?_key {β : Type} {key' : β → String} {R : α → β → Prop} {ys : List β}
    (h : List.Forall₂ R xs ys) (hkey : ∀ x y, R x y → key x = key' y) :
    Option.Rel R (xs.find? (key · == k)) (ys.find? (key' · == k)) := by
  induction h with
  | nil => exact .none
  | @cons x y xs ys hxy _ ih =>
    rw [List.find?_cons, List.find?_cons, hkey x y hxy]
    cases key' y == k with
    | true => exact .some hxy
    | false => exact ih

theorem find?_key_of_perm {ys : List α} (hn : (xs.map key).Nodup) (h : xs.Perm ys) :
    xs.find? (key · == k) = ys.find? (key · == k) := by
  have hn' : (ys.map key).Nodup := (h.map key).nodup_iff.mp hn
  by_cases hk : k ∈ xs.map key
  · obtain ⟨x, hx, rfl⟩ := List.mem_map.mp hk
    rw [find?_key_of_mem hn hx, find?_key_of_mem hn' (h.mem_iff.mp hx)]
  · have hk' : k ∉ ys.map key := mt (h.map key).mem_iff.mpr hk
    rw [find?_key_eq_none_iff.mpr hk, find?_key_eq_none_iff.mpr hk']

theorem countP_key_eq_zero_iff : xs.countP (key · == k) = 0 ↔ k ∉ xs.map key := by
  simp [List.countP_eq_zero]

theorem countP_key_eq_count : xs.countP (key · == k) = (xs.map key).count k := by
  rw [List.count_eq_countP, List.countP_map]
  rfl

theorem countP_key (hn : (xs.map key).Nodup) :
    xs.countP (key · == k) = if k ∈ xs.map key then 1 else 0 := by
  rw [countP_key_eq_count, hn.count]

theorem two_le_countP_key (hk : k ∈ xs.map key) (h : xs.countP (key · == k) ≠ 1) :
    2 ≤ xs.countP (key · == k) := by
  have hzero : xs.countP (key · == k) ≠ 0 := fun hzero => countP_key_eq_zero_iff.mp hzero hk
  omega

theorem eraseP_key_of_not_mem (hk : k ∉ xs.map key) : xs.eraseP (key · == k) = xs := by
  refine List.eraseP_of_forall_not fun x hx h => hk ?_
  exact List.mem_map.mpr ⟨x, hx, by simpa using h⟩

theorem eraseP_key_append_of_mem {ys : List α} (hk : k ∈ xs.map key) :
    (xs ++ ys).eraseP (key · == k) = xs.eraseP (key · == k) ++ ys := by
  obtain ⟨x, hx, rfl⟩ := List.mem_map.mp hk
  exact List.eraseP_append_left (by simp) ys hx

theorem eraseP_key_append_of_not_mem {ys : List α} (hk : k ∉ xs.map key) :
    (xs ++ ys).eraseP (key · == k) = xs ++ ys.eraseP (key · == k) := by
  refine List.eraseP_append_right ys fun x hx h => hk ?_
  exact List.mem_map.mpr ⟨x, hx, by simpa using h⟩

theorem eraseP_key_of_countP_le (h : xs.countP (key · == k) ≤ 1) :
    xs.eraseP (key · == k) = xs.filter (key · ≠ k) := by
  induction xs with
  | nil => rfl
  | cons x xs ih =>
    by_cases hk : key x = k
    · rw [List.countP_cons_of_pos (by simpa using hk), Nat.succ_le_succ_iff, Nat.le_zero,
        countP_key_eq_zero_iff] at h
      have hxs : ∀ y ∈ xs, key y ≠ k := fun y hy e => h (e ▸ List.mem_map_of_mem hy)
      rw [List.eraseP_cons_of_pos (by simpa using hk), List.filter_cons_of_neg (by simpa using hk)]
      exact (List.filter_eq_self.mpr (by simpa using hxs)).symm
    · rw [List.countP_cons_of_neg (by simpa using hk)] at h
      rw [List.eraseP_cons_of_neg (by simpa using hk), List.filter_cons_of_pos (by simpa using hk),
        ih h]

theorem eraseP_key_eq_filter (hn : (xs.map key).Nodup) :
    xs.eraseP (key · == k) = xs.filter (key · ≠ k) := by
  refine eraseP_key_of_countP_le ?_
  rw [countP_key hn]
  split <;> omega

theorem exists_split_of_mem_key (hn : (xs.map key).Nodup) (hx : x ∈ xs) :
    ∃ front back, xs = front ++ x :: back ∧ (∀ y ∈ front, key y ≠ key x) ∧
      ∀ y ∈ back, key y ≠ key x := by
  obtain ⟨front, back, rfl⟩ := List.append_of_mem hx
  rw [List.map_append, List.map_cons, List.nodup_middle, List.nodup_cons, List.mem_append] at hn
  refine ⟨front, back, rfl, fun y hy e => ?_, fun y hy e => ?_⟩
  · exact hn.1 (Or.inl (e ▸ List.mem_map_of_mem hy))
  · exact hn.1 (Or.inr (e ▸ List.mem_map_of_mem hy))

end Keys

/-! ## Members that pass in turn -/

section InTurn

variable {α β ε : Type} {P : List α → α → Prop} {xs done rest : List α} {x : α}

/-- Every member passes the test `P`, given the members in front of it. -/
def InTurn (P : List α → α → Prop) (xs : List α) : Prop :=
  ∀ done x rest, xs = done ++ x :: rest → P done x

theorem inTurn_nil (P : List α → α → Prop) : InTurn P [] := by
  intro done x rest h
  simp at h

theorem InTurn.of_append (h : InTurn P (xs ++ rest)) : InTurn P xs := by
  intro done x more e
  exact h done x (more ++ rest) (by rw [e, List.append_assoc, List.cons_append])

theorem inTurn_concat : InTurn P (xs ++ [x]) ↔ InTurn P xs ∧ P xs x := by
  constructor
  · intro h
    exact ⟨h.of_append, h xs x [] rfl⟩
  · rintro ⟨hxs, hx⟩ done y rest e
    -- `y` stands in `xs`, or it is the last member
    rcases List.append_eq_append_iff.mp e with ⟨more, hd, hr⟩ | ⟨more, hd, hr⟩
    · cases more with
      | nil => simp at hd hr; obtain ⟨rfl, -⟩ := hr; exact hd ▸ hx
      | cons z more => simp at hr
    · cases more with
      | nil => simp at hd hr; obtain ⟨rfl, -⟩ := hr; exact hd ▸ hx
      | cons z more =>
        simp at hr
        obtain ⟨rfl, -⟩ := hr
        exact hxs done y more hd

theorem inTurn_iff_forall {Q : α → Prop} : InTurn (fun _ x => Q x) xs ↔ ∀ x ∈ xs, Q x := by
  constructor
  · intro h x hx
    obtain ⟨done, rest, e⟩ := List.append_of_mem hx
    exact h done x rest e
  · rintro h done x rest rfl
    exact h x (List.mem_append_right _ List.mem_cons_self)

/-- **A list passes in turn, or it has a first member that does not pass.** -/
theorem inTurn_or_first (P : List α → α → Prop) (xs : List α) :
    InTurn P xs ∨ ∃ done x rest, xs = done ++ x :: rest ∧ InTurn P done ∧ ¬ P done x := by
  induction xs using List.reverseRecOn with
  | nil => exact Or.inl (inTurn_nil P)
  | append_singleton xs x ih =>
    rcases ih with h | ⟨done, y, rest, rfl, hd, hy⟩
    · by_cases hx : P xs x
      · exact Or.inl (inTurn_concat.mpr ⟨h, hx⟩)
      · exact Or.inr ⟨xs, x, [], rfl, h, hx⟩
    · exact Or.inr ⟨done, y, rest ++ [x], by simp, hd, hy⟩

variable {f : β → α → Except ε β} {g : List α → β} {e : ε}

/-- **The run of a step that can fail.** If `g` tells what the members so far come to, and the step
goes well wherever the test is passed, then the run of a list that passes in turn comes to what `g`
tells. -/
theorem foldlM_of_inTurn (hf : ∀ done x, P done x → f (g done) x = .ok (g (done ++ [x])))
    (h : InTurn P xs) : xs.foldlM f (g []) = .ok (g xs) := by
  induction xs using List.reverseRecOn with
  | nil => rfl
  | append_singleton xs x ih =>
    obtain ⟨hxs, hx⟩ := inTurn_concat.mp h
    rw [List.foldlM_append, ih hxs]
    change [x].foldlM f (g xs) = _
    rw [List.foldlM_cons, hf xs x hx]
    rfl

theorem foldlM_of_first (hf : ∀ done x, P done x → f (g done) x = .ok (g (done ++ [x])))
    (h : InTurn P done) (hx : f (g done) x = .error e) :
    (done ++ x :: rest).foldlM f (g []) = .error e := by
  rw [List.foldlM_append, foldlM_of_inTurn hf h]
  change (x :: rest).foldlM f (g done) = _
  rw [List.foldlM_cons, hx]
  rfl

theorem foldlM_ne_error (hf : ∀ b a, f b a ≠ .error e) (b : β) : xs.foldlM f b ≠ .error e := by
  induction xs generalizing b with
  | nil => exact nofun
  | cons x xs ih =>
    rw [List.foldlM_cons]
    cases h : f b x with
    | error e' => exact fun he => hf b x (h.trans he)
    | ok b' => exact ih b'

end InTurn

/-! ## Results of steps -/

theorem map_eq_ok_iff {α β ε : Type} {x : Except ε α} {f : α → β} {b : β} :
    x.map f = .ok b ↔ ∃ a, x = .ok a ∧ f a = b := by
  cases x <;> simp [Except.map]

theorem map_eq_error_iff {α β ε : Type} {x : Except ε α} {f : α → β} {e : ε} :
    x.map f = .error e ↔ x = .error e := by
  cases x <;> simp [Except.map]

theorem mapError_id {α ε : Type} (x : Except ε α) : x.mapError id = x := by cases x <;> rfl

theorem foldlM_map_mapError_of_comm {α α' β γ ε ε' : Type} {f : β → α → Except ε β}
    {f' : γ → α' → Except ε' γ} {g : β → γ} {k : α → α'} {e : ε → ε'}
    (h : ∀ b a, f' (g b) (k a) = ((f b a).map g).mapError e) (b : β) (xs : List α) :
    (xs.map k).foldlM f' (g b) = ((xs.foldlM f b).map g).mapError e := by
  induction xs generalizing b with
  | nil => rfl
  | cons x xs ih =>
    rw [List.map_cons, List.foldlM_cons, List.foldlM_cons, h]
    cases f b x with
    | error e => rfl
    | ok b' => exact ih b'

theorem foldlM_map_of_comm {α β γ ε : Type} {f : β → α → Except ε β} {f' : γ → α → Except ε γ}
    {g : β → γ} (h : ∀ b a, f' (g b) a = (f b a).map g) (b : β) (xs : List α) :
    xs.foldlM f' (g b) = (xs.foldlM f b).map g := by
  have hrun := foldlM_map_mapError_of_comm (k := id) (e := id)
    (fun b a => (h b a).trans (mapError_id _).symm) b xs
  rwa [List.map_id, mapError_id] at hrun

theorem mapM_eq_ok_of_mem {α β ε : Type} {f : α → Except ε β} {g : α → β} {xs : List α}
    (h : ∀ x ∈ xs, f x = .ok (g x)) : xs.mapM f = .ok (xs.map g) := by
  induction xs with
  | nil => rfl
  | cons x xs ih =>
    obtain ⟨hx, hxs⟩ := List.forall_mem_cons.mp h
    rw [List.mapM_cons, hx, ih hxs]
    rfl

theorem mapM_eq_ok {α β ε : Type} {f : α → Except ε β} {g : α → β} (h : ∀ x, f x = .ok (g x))
    (xs : List α) : xs.mapM f = .ok (xs.map g) := mapM_eq_ok_of_mem fun x _ => h x

theorem exists_mapM_eq_ok {α β ε : Type} {f : α → Except ε β} {xs : List α}
    (h : ∀ x ∈ xs, ∃ y, f x = .ok y) : ∃ ys, xs.mapM f = .ok ys := by
  induction xs with
  | nil => exact ⟨[], rfl⟩
  | cons x xs ih =>
    obtain ⟨⟨y, hy⟩, hxs⟩ := List.forall_mem_cons.mp h
    obtain ⟨ys, hys⟩ := ih hxs
    rw [List.mapM_cons, hy, hys]
    exact ⟨y :: ys, rfl⟩

theorem mapM_of_first {α β ε : Type} {f : α → Except ε β} {front back : List α} {x : α} {e : ε}
    (h : ∀ y ∈ front, ∃ z, f y = .ok z) (hx : f x = .error e) :
    (front ++ x :: back).mapM f = .error e := by
  induction front with
  | nil =>
    rw [List.nil_append, List.mapM_cons, hx]
    rfl
  | cons y front ih =>
    obtain ⟨⟨z, hz⟩, hfront⟩ := List.forall_mem_cons.mp h
    rw [List.cons_append, List.mapM_cons, hz, ih hfront]
    rfl

theorem map_eq_self_iff {α : Type} {f : α → α} {xs : List α} :
    xs.map f = xs ↔ ∀ x ∈ xs, f x = x := by
  have h := List.map_inj_left (f := f) (g := id) (l := xs)
  rwa [List.map_id] at h

/-! ## Interleaved lists -/

/-- The members of the first two lists, each in their order, make up the third. -/
inductive Interleaving {α : Type} : List α → List α → List α → Prop
  | nil : Interleaving [] [] []
  | left {x : α} {xs ys zs : List α} (h : Interleaving xs ys zs) :
    Interleaving (x :: xs) ys (x :: zs)
  | right {y : α} {xs ys zs : List α} (h : Interleaving xs ys zs) :
    Interleaving xs (y :: ys) (y :: zs)

namespace Interleaving

variable {α β : Type} {xs ys zs : List α} {x : α}

theorem perm (h : Interleaving xs ys zs) : zs.Perm (xs ++ ys) := by
  induction h with
  | nil => exact .nil
  | left _ ih => exact ih.cons _
  | right _ ih => exact (ih.cons _).trans List.perm_middle.symm

theorem mem_iff (h : Interleaving xs ys zs) : x ∈ zs ↔ x ∈ xs ∨ x ∈ ys :=
  h.perm.mem_iff.trans List.mem_append

theorem sublist (h : Interleaving xs ys zs) : xs.Sublist zs := by
  induction h with
  | nil => exact .slnil
  | left _ ih => exact ih.cons_cons _
  | right _ ih => exact ih.cons _

theorem filterMap (h : Interleaving xs ys zs) (f : α → Option β) :
    Interleaving (xs.filterMap f) (ys.filterMap f) (zs.filterMap f) := by
  induction h with
  | nil => exact .nil
  | @left x _ _ _ _ ih =>
    rw [List.filterMap_cons, List.filterMap_cons]
    cases f x with
    | none => exact ih
    | some y => exact ih.left
  | @right y _ _ _ _ ih =>
    rw [List.filterMap_cons, List.filterMap_cons]
    cases f y with
    | none => exact ih
    | some y => exact ih.right

theorem filter_eq {q : α → Bool} (h : Interleaving xs ys zs) (hx : ∀ x ∈ xs, q x = true)
    (hy : ∀ y ∈ ys, q y = false) : zs.filter q = xs := by
  induction h with
  | nil => rfl
  | left _ ih =>
    obtain ⟨hhead, hx⟩ := List.forall_mem_cons.mp hx
    rw [List.filter_cons_of_pos hhead, ih hx hy]
  | right _ ih =>
    obtain ⟨hhead, hy⟩ := List.forall_mem_cons.mp hy
    rw [List.filter_cons_of_neg (Bool.not_eq_true _ ▸ hhead), ih hx hy]

end Interleaving

end VersionedTypes
