/-!
# Byte offsets in UTF-8 text

Texts are lists of characters; a place in a text is the number of UTF-8 bytes in front of it.

* `utf8Size`: the number of bytes of a text, with `utf8Size_append`;
* `afterNewlines`: what follows the first `n` newlines;
* `dropBytes`, `takeBytes`: the text behind and in front of a byte offset;
* `isBoundary`: a byte offset that falls between two characters;
* **`isBoundary_iff`**: such an offset is the size of a part in front;
* `isBoundary_utf8Size_append`, `takeBytes_utf8Size_append`, `dropBytes_utf8Size_append`: the
  size of a part in front is such an offset, and cuts the text there;
* `isBoundary_one_cons`: one byte further is such an offset only behind a character of one byte.
-/

namespace VersionedTypes

/-- The number of bytes that `cs` takes in UTF-8. -/
def utf8Size : List Char → Nat
  | [] => 0
  | c :: cs => c.utf8Size + utf8Size cs

@[simp] theorem utf8Size_nil : utf8Size [] = 0 := rfl

@[simp] theorem utf8Size_cons (c : Char) (cs : List Char) :
    utf8Size (c :: cs) = c.utf8Size + utf8Size cs := rfl

@[simp] theorem utf8Size_append (as bs : List Char) :
    utf8Size (as ++ bs) = utf8Size as + utf8Size bs := by
  induction as with
  | nil => simp
  | cons c cs ih => simp [ih, Nat.add_assoc]

theorem utf8Size_pos {cs : List Char} (h : cs ≠ []) : 0 < utf8Size cs := by
  cases cs with
  | nil => exact absurd rfl h
  | cons c cs =>
    have hc := c.utf8Size_pos
    rw [utf8Size_cons]
    omega

/-- The text behind the first `n` newlines; none if there are fewer. -/
def afterNewlines : Nat → List Char → Option (List Char)
  | 0, cs => some cs
  | _ + 1, [] => none
  | n + 1, c :: cs => if c = '\n' then afterNewlines n cs else afterNewlines (n + 1) cs

/-- The text from byte `n` on; a character that `n` cuts is dropped whole. -/
def dropBytes : Nat → List Char → List Char
  | 0, cs => cs
  | _ + 1, [] => []
  | n + 1, c :: cs => dropBytes (n + 1 - c.utf8Size) cs

/-- The characters that lie within the first `n` bytes. -/
def takeBytes : Nat → List Char → List Char
  | _, [] => []
  | n, c :: cs => if c.utf8Size ≤ n then c :: takeBytes (n - c.utf8Size) cs else []

/-- Byte `n` lies between two characters of `cs`, or at one of its ends. -/
def isBoundary : Nat → List Char → Bool
  | 0, _ => true
  | _ + 1, [] => false
  | n + 1, c :: cs => c.utf8Size ≤ n + 1 && isBoundary (n + 1 - c.utf8Size) cs

/-! ## Offsets between two parts of a text -/

theorem isBoundary_add_append (as bs : List Char) (n : Nat) :
    isBoundary (utf8Size as + n) (as ++ bs) = isBoundary n bs := by
  induction as with
  | nil => rw [utf8Size_nil, Nat.zero_add, List.nil_append]
  | cons c cs ih =>
    have hc := c.utf8Size_pos
    obtain ⟨m, hm⟩ : ∃ m, c.utf8Size + utf8Size cs + n = m + 1 :=
      ⟨_, (Nat.succ_pred (by omega)).symm⟩
    have hsub : c.utf8Size + utf8Size cs + n - c.utf8Size = utf8Size cs + n := by omega
    rw [utf8Size_cons, hm, List.cons_append, isBoundary, ← hm, hsub, ih]
    simp [Nat.add_assoc]

/-- **Boundaries** are the sizes of the parts that the text begins with. -/
theorem isBoundary_iff {n : Nat} {cs : List Char} :
    isBoundary n cs = true ↔ ∃ as bs, cs = as ++ bs ∧ utf8Size as = n := by
  have hzero : ∀ cs : List Char, isBoundary 0 cs = true := fun cs => by rw [isBoundary]
  induction cs generalizing n with
  | nil =>
    cases n with
    | zero => exact iff_of_true (hzero _) ⟨[], [], rfl, rfl⟩
    | succ n => simp [isBoundary]
  | cons c cs ih =>
    cases n with
    | zero => exact iff_of_true (hzero _) ⟨[], c :: cs, rfl, rfl⟩
    | succ n =>
      have hc := c.utf8Size_pos
      rw [isBoundary, Bool.and_eq_true, decide_eq_true_iff]
      constructor
      · rintro ⟨hle, hrest⟩
        obtain ⟨as, bs, rfl, hsize⟩ := ih.mp hrest
        refine ⟨c :: as, bs, rfl, ?_⟩
        rw [utf8Size_cons]
        omega
      · rintro ⟨as, bs, hcs, hsize⟩
        cases as with
        | nil => cases hsize
        | cons c' as =>
          cases hcs
          rw [utf8Size_cons] at hsize
          exact ⟨by omega, ih.mpr ⟨as, bs, rfl, by omega⟩⟩

@[simp] theorem isBoundary_utf8Size_append (as bs : List Char) :
    isBoundary (utf8Size as) (as ++ bs) = true :=
  isBoundary_iff.mpr ⟨as, bs, rfl, rfl⟩

theorem isBoundary_utf8Size (cs : List Char) : isBoundary (utf8Size cs) cs = true :=
  isBoundary_iff.mpr ⟨cs, [], (List.append_nil cs).symm, rfl⟩

/-- One byte into a text there is a boundary only behind a character of one byte. -/
theorem isBoundary_one_cons {c : Char} {cs : List Char} :
    isBoundary 1 (c :: cs) = true ↔ c.utf8Size = 1 := by
  have hc := c.utf8Size_pos
  rw [isBoundary, Bool.and_eq_true, decide_eq_true_iff]
  constructor
  · rintro ⟨hle, -⟩
    omega
  · intro h
    rw [h]
    exact ⟨Nat.le_refl 1, by rw [Nat.sub_self, isBoundary]⟩

@[simp] theorem dropBytes_utf8Size_append (as bs : List Char) :
    dropBytes (utf8Size as) (as ++ bs) = bs := by
  induction as with
  | nil => cases bs <;> rfl
  | cons c cs ih =>
    have hc := c.utf8Size_pos
    obtain ⟨n, hn⟩ : ∃ n, c.utf8Size + utf8Size cs = n + 1 := ⟨_, (Nat.succ_pred (by omega)).symm⟩
    rw [utf8Size_cons, hn, List.cons_append, dropBytes, ← hn, Nat.add_sub_cancel_left, ih]

theorem eq_of_append_eq_append {as bs as' bs' : List Char} (h : as ++ bs = as' ++ bs')
    (hsize : utf8Size as = utf8Size as') : bs = bs' := by
  have hdrop := congrArg (dropBytes (utf8Size as)) h
  rwa [dropBytes_utf8Size_append, hsize, dropBytes_utf8Size_append] at hdrop

theorem takeBytes_zero (cs : List Char) : takeBytes 0 cs = [] := by
  cases cs with
  | nil => rfl
  | cons c cs => have := c.utf8Size_pos; rw [takeBytes, if_neg (by omega)]

@[simp] theorem takeBytes_utf8Size_append (as bs : List Char) :
    takeBytes (utf8Size as) (as ++ bs) = as := by
  induction as with
  | nil => exact takeBytes_zero bs
  | cons c cs ih =>
    rw [utf8Size_cons, List.cons_append, takeBytes, if_pos (Nat.le_add_right _ _),
      Nat.add_sub_cancel_left, ih]

/-- What follows `n` newlines is the rest of the text behind a part with as many of them, and this
part ends with the last of them. -/
theorem exists_of_afterNewlines : ∀ {n : Nat} {cs rest : List Char},
    afterNewlines n cs = some rest →
      ∃ front, cs = front ++ rest ∧ front.count '\n' = n ∧ ∀ c ∈ front.getLast?, c = '\n'
  | 0, cs, rest, h => ⟨[], by rw [afterNewlines] at h; exact Option.some.inj h, rfl, nofun⟩
  | n + 1, [], rest, h => by simp [afterNewlines] at h
  | n + 1, c :: cs, rest, h => by
    rw [afterNewlines] at h
    split at h
    · next hc =>
      obtain ⟨front, rfl, hn, hlast⟩ := exists_of_afterNewlines h
      refine ⟨c :: front, rfl, by rw [hc, List.count_cons_self, hn], ?_⟩
      cases front with
      | nil => simpa using hc
      | cons x xs => rwa [List.getLast?_cons_cons]
    · next hc =>
      obtain ⟨front, rfl, hn, hlast⟩ := exists_of_afterNewlines h
      refine ⟨c :: front, rfl, by rw [List.count_cons_of_ne hc, hn], ?_⟩
      cases front with
      | nil => cases hn
      | cons x xs => rwa [List.getLast?_cons_cons]

theorem afterNewlines_isSome_iff : ∀ {n : Nat} {cs : List Char},
    (afterNewlines n cs).isSome ↔ n ≤ cs.count '\n'
  | 0, cs => by simp [afterNewlines]
  | n + 1, [] => by simp [afterNewlines]
  | n + 1, c :: cs => by
    rw [afterNewlines]
    split
    · next hc => rw [afterNewlines_isSome_iff, hc, List.count_cons_self, Nat.succ_le_succ_iff]
    · next hc => rw [afterNewlines_isSome_iff, List.count_cons_of_ne hc]

end VersionedTypes
