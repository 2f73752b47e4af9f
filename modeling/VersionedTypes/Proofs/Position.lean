import Mathlib.Data.List.TakeWhile
import VersionedTypes.Position

/-!
# Where positions are in a text

A position is in front of a character of the text, or at the end of it, and the bytes that it stands
for are those of whole characters.

* `IsLine`: a line of a text between what is above and below it;
* `Position.byteRange_of_isLine`: the range of a position in a line;
* `Position.exists_isLine_of_byteRange`, **`Position.isSome_byteRange_iff`**: positions that have a
  range are those in a line of the text;
* **`Position.exists_of_byteRange`**: the text in front of a position, and behind it.
-/

namespace VersionedTypes

/-! ## Lines -/

/-- `line` is line number `n` of the text that begins with `above` and ends with `below`. -/
structure IsLine (n : Nat) (above line below : List Char) : Prop where
  number : above.count '\n' + 1 = n
  start : ∀ c ∈ above.getLast?, c = '\n'
  unbroken : '\n' ∉ line
  stop : ∀ c ∈ below.head?, c = '\n'

theorem isLine_takeWhile {above rest : List Char} (h : ∀ c ∈ above.getLast?, c = '\n') :
    IsLine (above.count '\n' + 1) above (rest.takeWhile (· ≠ '\n'))
      (rest.dropWhile (· ≠ '\n')) where
  number := rfl
  start := h
  unbroken hc := by simpa using List.mem_takeWhile_imp hc
  stop c hc := by
    have hhead := List.head?_dropWhile_not (· ≠ '\n') rest
    rw [Option.mem_def.mp hc] at hhead
    simpa using hhead

theorem afterNewlines_append {above rest : List Char} (h : ∀ c ∈ above.getLast?, c = '\n') :
    afterNewlines (above.count '\n') (above ++ rest) = some rest := by
  induction above with
  | nil => rw [List.count_nil, afterNewlines, List.nil_append]
  | cons c above ih =>
    cases above with
    | nil =>
      obtain rfl : c = '\n' := h c rfl
      simp [afterNewlines]
    | cons x above =>
      rw [List.getLast?_cons_cons] at h
      have ih := ih h
      by_cases hc : c = '\n'
      · rw [hc, List.count_cons_self, List.cons_append, afterNewlines, if_pos rfl, ih]
      · -- the part behind `c` has a newline, since it ends with one
        obtain ⟨n, hn⟩ : ∃ n, (x :: above).count '\n' = n + 1 := by
          have hmem := List.getLast_mem (List.cons_ne_nil x above)
          rw [h _ (List.getLast?_eq_some_getLast _)] at hmem
          exact Nat.exists_eq_add_one_of_ne_zero (List.count_pos_iff.mpr hmem).ne'
        rw [hn] at ih
        rw [List.count_cons_of_ne hc, hn, List.cons_append, afterNewlines, if_neg hc, ih]

namespace IsLine

variable {n : Nat} {above line below : List Char}

theorem takeWhile (h : IsLine n above line below) :
    (line ++ below).takeWhile (· ≠ '\n') = line := by
  have hline : ∀ c ∈ line, decide (c ≠ '\n') = true := fun c hc =>
    decide_eq_true fun e => h.unbroken (e ▸ hc)
  have hbelow : below.takeWhile (· ≠ '\n') = [] := by
    cases below with
    | nil => rfl
    | cons c below => rw [List.takeWhile_cons_of_neg (by simpa using h.stop c rfl)]
  rw [List.takeWhile_append_of_pos hline, hbelow, List.append_nil]

theorem afterNewlines (h : IsLine n above line below) :
    afterNewlines (n - 1) (above ++ (line ++ below)) = some (line ++ below) := by
  obtain ⟨rfl, hlast, -, -⟩ := h
  rw [Nat.add_sub_cancel]
  exact afterNewlines_append hlast

end IsLine

theorem ByteRange.slice_append (front part back : List Char) :
    slice ⟨utf8Size front, utf8Size front + utf8Size part⟩ (front ++ (part ++ back)) = part := by
  rw [slice, Nat.add_sub_cancel_left, dropBytes_utf8Size_append, takeBytes_utf8Size_append]

namespace Position

variable {p : Position} {source : List Char} {r : ByteRange}

theorem isKnown_iff : p.isKnown = true ↔ 1 ≤ p.line.toNat := by
  rw [isKnown, bne_iff_ne, ne_eq, ← UInt32.toNat_inj]
  exact Nat.pos_iff_ne_zero.symm

/-- In front of the position are what is above its line and as many characters of the line as the
column tells. -/
def front (p : Position) (above line : List Char) : List Char :=
  above ++ line.take (p.column.toNat - 1)

/-- The position is in front of the rest of the line and what is below it. -/
def rest (p : Position) (line below : List Char) : List Char :=
  line.drop (p.column.toNat - 1) ++ below

theorem front_append_rest (p : Position) (above line below : List Char) :
    p.front above line ++ p.rest line below = above ++ (line ++ below) := by
  rw [front, rest, List.append_assoc, ← List.append_assoc (line.take _), List.take_append_drop]

theorem length_front (p : Position) (above line : List Char) :
    (p.front above line).length = above.length + min (max p.column.toNat 1 - 1) line.length := by
  rw [front, List.length_append, List.length_take]
  omega

/-- **The range of a position in a line**: in front of it are what is above the line and as many
characters of the line as the column tells. -/
theorem byteRange_of_isLine {above line below : List Char}
    (h : IsLine p.line.toNat above line below) :
    p.byteRange (above ++ (line ++ below)) = some ⟨utf8Size (p.front above line),
      utf8Size (p.front above line) + utf8Size ((p.rest line below).take p.length.toNat)⟩ := by
  have hknown : p.isKnown = true := isKnown_iff.mpr (h.number ▸ Nat.le_add_left ..)
  have hline : (line ++ below).takeWhile (· ≠ '\n') = line := h.takeWhile
  have hdrop : (line ++ below).drop (line.take (p.column.toNat - 1)).length =
      p.rest line below := by
    calc
      _ = (line.take _ ++ (line.drop _ ++ below)).drop (line.take (p.column.toNat - 1)).length := by
        rw [← List.append_assoc, List.take_append_drop]
      _ = _ := List.drop_left
  rw [byteRange, if_pos hknown, h.afterNewlines, Option.map_some, hline]
  simp only [hdrop, front, utf8Size_append, Nat.add_sub_cancel]

/-- The position of a range is in a line of the text. -/
theorem exists_isLine_of_byteRange (h : p.byteRange source = some r) :
    ∃ above line below, source = above ++ (line ++ below) ∧
      IsLine p.line.toNat above line below := by
  unfold byteRange at h
  split at h
  · next hknown =>
    obtain ⟨text, htext, -⟩ := Option.map_eq_some_iff.mp h
    obtain ⟨above, rfl, hcount, hlast⟩ := exists_of_afterNewlines htext
    have hline : above.count '\n' + 1 = p.line.toNat := by
      have := isKnown_iff.mp hknown
      omega
    exact ⟨above, _, _, by rw [List.takeWhile_append_dropWhile], hline ▸ isLine_takeWhile hlast⟩
  · cases h

/-- **The text around a position**: what is in front of it, and a rest that begins with the
characters that the position stands for. -/
theorem exists_of_byteRange (h : p.byteRange source = some r) :
    ∃ front rest, source = front ++ rest ∧
      r = ⟨utf8Size front, utf8Size front + utf8Size (rest.take p.length.toNat)⟩ := by
  obtain ⟨above, line, below, rfl, hline⟩ := exists_isLine_of_byteRange h
  rw [byteRange_of_isLine hline] at h
  exact ⟨_, _, (p.front_append_rest above line below).symm, (Option.some.inj h).symm⟩

/-- **The positions that have a range** are those in a line that the text has. -/
theorem isSome_byteRange_iff : (p.byteRange source).isSome = true ↔
    1 ≤ p.line.toNat ∧ p.line.toNat ≤ 1 + source.count '\n' := by
  unfold byteRange
  rw [← isKnown_iff]
  split
  · next hknown =>
    rw [Option.isSome_map, afterNewlines_isSome_iff, Nat.sub_le_iff_le_add']
    exact (and_iff_right hknown).symm
  · next hknown => exact iff_of_false Bool.false_ne_true fun h => hknown h.1

end Position

end VersionedTypes
