import Mathlib.Data.List.Basic

/-!
# Lists made up of parts

A list that is made up of parts tells the parts if it tells where they begin or end: if every part
ends with a member that no part has otherwise, or begins with one.

* `intercalate_cons`, `splitOn_flatMap_concat`: parts that end with a separator;
* `Begins`, **`map_eq_of_flatMap_eq`**: parts that begin with a member of their own kind.
-/

namespace VersionedTypes

section Separators

variable {α : Type}

theorem intercalate_cons {separator part : List α} {parts : List (List α)} :
    separator.intercalate (part :: parts) = part ++ parts.flatMap (separator ++ ·) := by
  induction parts generalizing part with
  | nil => rw [List.intercalate_singleton, List.flatMap_nil, List.append_nil]
  | cons part' parts ih =>
    rw [List.intercalate_cons_cons, ih, List.flatMap_cons, List.append_assoc, List.append_assoc]

variable [DecidableEq α] {separator : α} {parts : List (List α)}

theorem splitOn_flatMap_concat (h : ∀ part ∈ parts, separator ∉ part) :
    (parts.flatMap fun part => part ++ [separator]).splitOn separator = parts ++ [[]] := by
  induction parts with
  | nil => rfl
  | cons part parts ih =>
    obtain ⟨hpart, hparts⟩ := List.forall_mem_cons.mp h
    rw [List.flatMap_cons, List.append_assoc, List.singleton_append,
      List.splitOn_append_cons_self_of_not_mem hpart, ih hparts, List.cons_append]

end Separators

/-! ## Parts with a beginning -/

section Beginnings

variable {α β γ : Type} {begins : β → Bool} {f : α → List β} {g : α → γ} {xs ys : List α}

/-- The first member of a part, and no other one, passes the test `begins`. -/
def Begins (begins : β → Bool) (part : List β) : Prop :=
  ∃ head tail, part = head :: tail ∧ begins head = true ∧ ∀ b ∈ tail, begins b = false

theorem takeWhile_append_flatMap {tail : List β} (htail : ∀ b ∈ tail, begins b = false)
    (hf : ∀ x ∈ xs, Begins begins (f x)) :
    (tail ++ xs.flatMap f).takeWhile (fun b => !begins b) = tail := by
  have hxs : (xs.flatMap f).takeWhile (fun b => !begins b) = [] := by
    cases xs with
    | nil => rfl
    | cons x xs =>
      obtain ⟨head, rest, hpart, hhead, -⟩ := hf x List.mem_cons_self
      rw [List.flatMap_cons, hpart, List.cons_append, List.takeWhile_cons_of_neg (by simp [hhead])]
  rw [List.takeWhile_append_of_pos fun b hb => by rw [htail b hb]; rfl, hxs, List.append_nil]

/-- **Parts that begin alike are the same parts**: whatever a part tells of the member that it is
made of, all of them together tell of all members. -/
theorem map_eq_of_flatMap_eq (hx : ∀ x ∈ xs, Begins begins (f x))
    (hy : ∀ y ∈ ys, Begins begins (f y)) (hg : ∀ x ∈ xs, ∀ y ∈ ys, f x = f y → g x = g y)
    (h : xs.flatMap f = ys.flatMap f) : xs.map g = ys.map g := by
  induction xs generalizing ys with
  | nil =>
    cases ys with
    | nil => rfl
    | cons y ys =>
      obtain ⟨head, tail, hpart, -⟩ := hy y List.mem_cons_self
      rw [List.flatMap_cons, hpart] at h
      cases h
  | cons x xs ih =>
    obtain ⟨hpart, hxs⟩ := List.forall_mem_cons.mp hx
    obtain ⟨head, tail, hfx, -, htail⟩ := hpart
    cases ys with
    | nil => rw [List.flatMap_cons, hfx] at h; cases h
    | cons y ys =>
      obtain ⟨hpart', hys⟩ := List.forall_mem_cons.mp hy
      obtain ⟨head', tail', hfy, -, htail'⟩ := hpart'
      rw [List.flatMap_cons, List.flatMap_cons, hfx, hfy, List.cons_append, List.cons_append] at h
      obtain ⟨rfl, hrest⟩ := List.cons.inj h
      have htails := congrArg (List.takeWhile fun b => !begins b) hrest
      rw [takeWhile_append_flatMap htail hxs, takeWhile_append_flatMap htail' hys] at htails
      subst htails
      have hmembers : ∀ x ∈ xs, ∀ y ∈ ys, f x = f y → g x = g y := fun x hx y hy =>
        hg x (List.mem_cons_of_mem _ hx) y (List.mem_cons_of_mem _ hy)
      rw [List.map_cons, List.map_cons, ih hxs hys hmembers (List.append_cancel_left hrest),
        hg x List.mem_cons_self y List.mem_cons_self (hfx.trans hfy.symm)]

end Beginnings

end VersionedTypes
