import VersionedTypes.Proofs.Position

/-!
# Ranges by way of offsets

Lines, columns and lengths count characters, and offsets count bytes. A range can be found by going
through the offsets of the characters, as long as no text is cut within a character and nothing is
taken from a smaller number. This never happens, and the range is the same.

* `charOffsets`, `behindNewline?`, `sliceFrom`, `minus`: steps on offsets, with checks;
* `getD_charOffsets`, `behindNewline?_eq`: offsets and the characters in front of them;
* `Position.byteRangeChecked`, **`Position.byteRangeChecked_eq`**: the range with all checks;
* **`Position.byteRange_exact`**: the positions that have a range, and the characters in it.
-/

namespace VersionedTypes

/-! ## Offsets with checks -/

/-- A step that offsets do not allow. -/
inductive OffsetError where
  /-- The text is cut within a character, or behind its end. -/
  | cut (offset : Nat)
  /-- More is taken away than there is. -/
  | underflow (n k : Nat)
  deriving DecidableEq

/-- The difference of two numbers that are never negative. -/
def minus (n k : Nat) : Except OffsetError Nat :=
  if k ≤ n then .ok (n - k) else .error (.underflow n k)

/-- The text from an offset on. -/
def sliceFrom (offset : Nat) (cs : List Char) : Except OffsetError (List Char) :=
  if isBoundary offset cs then .ok (dropBytes offset cs) else .error (.cut offset)

/-- The characters of a text with their offsets, which count on from the given one. -/
def charOffsets : Nat → List Char → List (Nat × Char)
  | _, [] => []
  | start, c :: cs => (start, c) :: charOffsets (start + c.utf8Size) cs

/-- The offset behind the `n`th newline, counted from zero. -/
def behindNewline? (n : Nat) (cs : List Char) : Option Nat :=
  ((charOffsets 0 cs).filter (·.2 = '\n'))[n]?.map (·.1 + 1)

namespace Position

/-- The offset of the first character of the line, if the text has this line. -/
def lineStartChecked (p : Position) (source : List Char) : Except OffsetError (Option Nat) :=
  if p.line = 1 then .ok (some 0)
  else (minus p.line.toNat 2).map fun n => behindNewline? n source

/-- The range, given the offset of the line. -/
def rangeFromChecked (p : Position) (source : List Char) (lineStart : Nat) :
    Except OffsetError ByteRange := do
  let text ← sliceFrom lineStart source
  let line := text.takeWhile (· ≠ '\n')
  let column ← minus (max p.column 1).toNat 1
  let start :=
    ((charOffsets 0 line)[column]?.map (lineStart + ·.1)).getD (lineStart + utf8Size line)
  let rest ← sliceFrom start source
  let stop := ((charOffsets 0 rest)[p.length.toNat]?.map (start + ·.1)).getD (utf8Size source)
  pure ⟨start, stop⟩

/-- The bytes that a position stands for, by way of offsets into the text. -/
def byteRangeChecked (p : Position) (source : List Char) :
    Except OffsetError (Option ByteRange) :=
  if p.isKnown then do
    match ← p.lineStartChecked source with
    | none => pure none
    | some lineStart => some <$> p.rangeFromChecked source lineStart
  else pure none

end Position

section Offsets

variable {cs front rest : List Char} {start n k : Nat}

theorem minus_of_le (h : k ≤ n) : minus n k = .ok (n - k) := if_pos h

theorem sliceFrom_append (front rest : List Char) :
    sliceFrom (utf8Size front) (front ++ rest) = .ok rest := by
  rw [sliceFrom, if_pos (isBoundary_utf8Size_append front rest), dropBytes_utf8Size_append]

theorem getElem?_charOffsets :
    (charOffsets start cs)[n]? = cs[n]?.map fun c => (start + utf8Size (cs.take n), c) := by
  induction cs generalizing start n with
  | nil => rfl
  | cons c cs ih =>
    cases n with
    | zero => rfl
    | succ n =>
      rw [charOffsets, List.getElem?_cons_succ, ih, List.getElem?_cons_succ, List.take_succ_cons,
        utf8Size_cons, Nat.add_assoc]

theorem getD_charOffsets (start n : Nat) (cs : List Char) :
    ((charOffsets 0 cs)[n]?.map (start + ·.1)).getD (start + utf8Size cs) =
      start + utf8Size (cs.take n) := by
  rw [getElem?_charOffsets]
  cases h : cs[n]? with
  | none => rw [List.take_of_length_le (List.getElem?_eq_none_iff.mp h)]; rfl
  | some c => simp

theorem utf8Size_le_of_afterNewlines (h : afterNewlines n cs = some rest) :
    utf8Size rest ≤ utf8Size cs := by
  obtain ⟨front, rfl, -⟩ := exists_of_afterNewlines h
  rw [utf8Size_append]
  exact Nat.le_add_left ..

/-- What follows the newlines of a text is found by their offsets. -/
theorem getElem?_filter_charOffsets (start n : Nat) (cs : List Char) :
    ((charOffsets start cs).filter (·.2 = '\n'))[n]?.map (·.1 + 1) =
      (afterNewlines (n + 1) cs).map fun rest => start + (utf8Size cs - utf8Size rest) := by
  induction cs generalizing start n with
  | nil => rfl
  | cons c cs ih =>
    -- the size of `c` is added to the offset that the search starts with
    have hstep : ∀ k, (afterNewlines k cs).map (fun rest =>
        start + c.utf8Size + (utf8Size cs - utf8Size rest)) =
          (afterNewlines k cs).map fun rest =>
            start + (c.utf8Size + utf8Size cs - utf8Size rest) := fun k =>
      Option.map_congr fun rest hrest => by
        have := utf8Size_le_of_afterNewlines hrest
        omega
    by_cases hc : c = '\n'
    · rw [charOffsets, List.filter_cons_of_pos (by simpa using hc), afterNewlines, if_pos hc]
      cases n with
      | zero =>
        subst hc
        rw [afterNewlines, utf8Size_cons, Option.map_some, Nat.add_sub_cancel]
        rfl
      | succ n => rw [List.getElem?_cons_succ, ih, hstep]; rfl
    · rw [charOffsets, List.filter_cons_of_neg (by simpa using hc), ih, afterNewlines, if_neg hc,
        hstep]
      rfl

theorem behindNewline?_eq (n : Nat) (cs : List Char) : behindNewline? n cs =
    (afterNewlines (n + 1) cs).map fun rest => utf8Size cs - utf8Size rest := by
  rw [behindNewline?, getElem?_filter_charOffsets]
  simp only [Nat.zero_add]

end Offsets

namespace Position

variable {p : Position}

theorem lineStartChecked_eq (h : 1 ≤ p.line.toNat) (source : List Char) :
    p.lineStartChecked source = .ok ((afterNewlines (p.line.toNat - 1) source).map fun rest =>
      utf8Size source - utf8Size rest) := by
  unfold lineStartChecked
  split
  · next hone =>
    rw [hone]
    simp [afterNewlines]
  · next hne =>
    rw [← UInt32.toNat_inj] at hne
    have htwo : 2 ≤ p.line.toNat := Nat.lt_of_le_of_ne h (Ne.symm hne)
    rw [minus_of_le htwo]
    change Except.ok (behindNewline? (p.line.toNat - 2) source) = _
    rw [behindNewline?_eq, show p.line.toNat - 2 + 1 = p.line.toNat - 1 by omega]

theorem toNat_max_one (n : UInt32) : (max n 1).toNat = max n.toNat 1 := by
  change (if n ≤ 1 then 1 else n).toNat = _
  split
  · next h => exact (Nat.max_eq_right (UInt32.le_iff_toNat_le.mp h)).symm
  · next h => exact (Nat.max_eq_left (Nat.le_of_not_le (mt UInt32.le_iff_toNat_le.mpr h))).symm

/-- From the start of a line on, the range is found as if characters were counted. -/
theorem rangeFromChecked_eq (p : Position) (above text : List Char) :
    p.rangeFromChecked (above ++ text) (utf8Size above) =
      let skipped := (text.takeWhile (· ≠ '\n')).take (p.column.toNat - 1)
      let start := utf8Size above + utf8Size skipped
      .ok ⟨start, start + utf8Size ((text.drop skipped.length).take p.length.toNat)⟩ := by
  obtain ⟨rest, hrest⟩ : (text.takeWhile (· ≠ '\n')).take (p.column.toNat - 1) <+: text :=
    (List.take_prefix ..).trans (List.takeWhile_prefix _)
  have hcolumn : minus (max p.column 1).toNat 1 = .ok (p.column.toNat - 1) := by
    rw [toNat_max_one, minus_of_le (Nat.le_max_right ..)]
    congr 1
    omega
  have hstart := getD_charOffsets (utf8Size above) (p.column.toNat - 1) (text.takeWhile (· ≠ '\n'))
  unfold rangeFromChecked
  dsimp only
  generalize (text.takeWhile (· ≠ '\n')).take (p.column.toNat - 1) = skipped at hrest hstart ⊢
  subst hrest
  have hslice := sliceFrom_append (above ++ skipped) rest
  rw [List.append_assoc, utf8Size_append] at hslice
  have hsize : utf8Size (above ++ (skipped ++ rest)) =
      utf8Size above + utf8Size skipped + utf8Size rest := by
    rw [utf8Size_append, utf8Size_append, Nat.add_assoc]
  simp only [bind, Except.bind, sliceFrom_append, hcolumn, hstart, hslice, hsize, getD_charOffsets,
    List.drop_left]
  rfl

/-- **No check fails**, and the range is the same. -/
theorem byteRangeChecked_eq (p : Position) (source : List Char) :
    p.byteRangeChecked source = .ok (p.byteRange source) := by
  unfold byteRangeChecked byteRange
  split
  · next hknown =>
    rw [lineStartChecked_eq (isKnown_iff.mp hknown)]
    cases htext : afterNewlines (p.line.toNat - 1) source with
    | none => rfl
    | some text =>
      obtain ⟨above, rfl, -⟩ := exists_of_afterNewlines htext
      rw [Option.map_some, utf8Size_append, Nat.add_sub_cancel]
      change some <$> p.rangeFromChecked (above ++ text) (utf8Size above) = _
      rw [rangeFromChecked_eq, Option.map_some, Nat.add_sub_cancel]
      rfl
  · rfl

/-- **Positions and characters.** A position has a range in a text exactly if the text has its line;
there is one line more than there are newlines. In front of the range are what is above the line and
as many characters of the line as the column tells, as far as the line goes; in the range are as
many characters as the position is long, as far as the text goes. So a range is within the text, and
both its ends are between characters, or at an end. No cut and no subtraction fails on the way. -/
theorem byteRange_exact (p : Position) (source : List Char) :
    ((p.byteRange source).isSome = true ↔
      1 ≤ p.line.toNat ∧ p.line.toNat ≤ 1 + source.count '\n') ∧
    (∀ r, p.byteRange source = some r ↔
      ∃ above line below front part back, source = above ++ (line ++ below) ∧
        IsLine p.line.toNat above line below ∧ source = front ++ (part ++ back) ∧
        front.length = above.length + min (max p.column.toNat 1 - 1) line.length ∧
        part.length = min p.length.toNat (part ++ back).length ∧
        r = ⟨utf8Size front, utf8Size (front ++ part)⟩ ∧ r.slice source = part) ∧
    (∀ r, p.byteRange source = some r →
      r.start ≤ r.stop ∧ r.stop ≤ utf8Size source ∧ isBoundary r.start source = true ∧
        isBoundary r.stop source = true) ∧
    p.byteRangeChecked source = .ok (p.byteRange source) := by
  refine ⟨isSome_byteRange_iff, fun r => ⟨fun h => ?_, ?_⟩, fun r h => ?_,
    p.byteRangeChecked_eq source⟩
  · obtain ⟨above, line, below, rfl, hline⟩ := exists_isLine_of_byteRange h
    obtain rfl := Option.some.inj ((byteRange_of_isLine hline).symm.trans h)
    have hsource : above ++ (line ++ below) = p.front above line ++
        ((p.rest line below).take p.length.toNat ++ (p.rest line below).drop p.length.toNat) := by
      rw [List.take_append_drop, front_append_rest]
    refine ⟨above, line, below, _, _, _, rfl, hline, hsource, p.length_front above line, ?_,
      by rw [utf8Size_append], ?_⟩
    · rw [List.take_append_drop, List.length_take]
    · rw [hsource, ByteRange.slice_append]
  · rintro ⟨above, line, below, front, part, back, rfl, hline, hsource, hfront, hpart, rfl, -⟩
    rw [← p.length_front above line] at hfront
    rw [← p.front_append_rest above line below] at hsource
    obtain ⟨rfl, hrest⟩ := List.append_inj hsource hfront.symm
    rw [byteRange_of_isLine hline, hrest, utf8Size_append]
    rw [← List.take_length (l := part ++ back), List.take_take, ← hpart, List.take_left]
  · obtain ⟨front, rest, rfl, rfl⟩ := exists_of_byteRange h
    have hstop := isBoundary_utf8Size_append (front ++ rest.take p.length.toNat)
      (rest.drop p.length.toNat)
    have hsize := utf8Size_append (rest.take p.length.toNat) (rest.drop p.length.toNat)
    rw [List.append_assoc, List.take_append_drop, utf8Size_append] at hstop
    rw [List.take_append_drop] at hsize
    refine ⟨Nat.le_add_right .., ?_, isBoundary_utf8Size_append front rest, hstop⟩
    rw [utf8Size_append, hsize]
    dsimp only
    omega

/-- A column behind the end of its line, and a length that runs over the end of the text: the range
goes from the newline on to the end. -/
theorem byteRange_of_overrun :
    let source := ['é', '\n', 'ü', 'x', '\n', '→']
    let p : Position := ⟨2, 9, 4⟩
    p.byteRange source = some ⟨6, 10⟩ ∧ isBoundary 6 source = true ∧ isBoundary 10 source = true ∧
      p.byteRangeChecked source = .ok (some ⟨6, 10⟩) := by
  intro source p
  obtain ⟨-, -, hrange, hchecked⟩ := byteRange_exact p source
  have hsome : p.byteRange source = some ⟨6, 10⟩ := by decide
  obtain ⟨-, -, hstart, hstop⟩ := hrange _ hsome
  exact ⟨hsome, hstart, hstop, hsome ▸ hchecked⟩

end Position

end VersionedTypes
