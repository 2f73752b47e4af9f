import VersionedTypes.Proofs.Lists
import VersionedTypes.Proofs.Position
import VersionedTypes.Report

/-!
# Which snippets can be shown

A snippet needs a range to point at, so an empty one is widened; but it is widened by a byte, while
positions count characters. In front of a character of several bytes the widened range ends within
that character. All other ranges consist of whole characters.

* `Diagnostic.Cuts`: an empty range in front of a character of several bytes;
* `Diagnostic.Shows`, `Diagnostic.shows_of_shownRange`: where the shown range is in the source;
* `Diagnostic.Shows.isBoundary_stop_iff`: it ends between characters unless the diagnostic cuts one;
* `Diagnostic.snippet_eq_error_iff`, `Report.render_of_first`: the first cut character ends a
  report;
* **`Report.rendered_iff_uncut`**: shown ranges, and the sources on which reports succeed.
-/

namespace VersionedTypes

theorem ByteRange.widen_empty (limit n : Nat) : widen limit ⟨n, n⟩ = ⟨n, min (n + 1) limit⟩ :=
  if_pos rfl

theorem ByteRange.widen_of_ne {r : ByteRange} {limit : Nat} (h : r.start ≠ r.stop) :
    widen limit r = r :=
  if_neg h

namespace Diagnostic

variable {d : Diagnostic} {source : List Char} {r : ByteRange}

/-- The range of the diagnostic is empty, and what follows it in the source is a character of
several bytes. -/
def Cuts (d : Diagnostic) (source : List Char) : Prop :=
  ∃ front c back, source = front ++ c :: back ∧ 1 < c.utf8Size ∧
    d.origin.position.byteRange source = some ⟨utf8Size front, utf8Size front⟩

/-! ## Shown ranges -/

/-- Where a shown range is in the source: at its end, on the first byte behind an empty range, or on
whole characters. -/
inductive Shows (d : Diagnostic) : List Char → ByteRange → Prop
  | atEnd {text : List Char}
      (h : d.origin.position.byteRange text = some ⟨utf8Size text, utf8Size text⟩) :
    Shows d text ⟨utf8Size text, utf8Size text⟩
  | widened {front back : List Char} {c : Char}
      (h : d.origin.position.byteRange (front ++ c :: back) =
        some ⟨utf8Size front, utf8Size front⟩) :
    Shows d (front ++ c :: back) ⟨utf8Size front, utf8Size front + 1⟩
  | whole {front part back : List Char} (hp : part ≠ [])
      (h : d.origin.position.byteRange (front ++ (part ++ back)) =
        some ⟨utf8Size front, utf8Size front + utf8Size part⟩) :
    Shows d (front ++ (part ++ back)) ⟨utf8Size front, utf8Size front + utf8Size part⟩

theorem shows_of_shownRange (h : d.shownRange source = some r) : d.Shows source r := by
  obtain ⟨range, hrange, rfl⟩ := Option.map_eq_some_iff.mp h
  obtain ⟨front, rest, rfl, rfl⟩ := Position.exists_of_byteRange hrange
  cases hpart : rest.take d.origin.position.length.toNat with
  | nil =>
    rw [hpart, utf8Size_nil, Nat.add_zero] at hrange
    rw [utf8Size_nil, Nat.add_zero, ByteRange.widen_empty]
    cases rest with
    | nil =>
      rw [List.append_nil] at hrange ⊢
      rw [Nat.min_eq_right (Nat.le_add_right ..)]
      exact .atEnd hrange
    | cons c back =>
      have hc := c.utf8Size_pos
      rw [utf8Size_append, utf8Size_cons, Nat.min_eq_left (by omega)]
      exact .widened hrange
  | cons c part =>
    have hc := c.utf8Size_pos
    have hrest : rest = (c :: part) ++ rest.drop d.origin.position.length.toNat := by
      rw [← hpart, List.take_append_drop]
    rw [hpart, hrest] at hrange
    rw [ByteRange.widen_of_ne (by simp only [utf8Size_cons]; omega), hrest]
    exact .whole nofun hrange

namespace Shows

theorem start_le_stop (h : d.Shows source r) : r.start ≤ r.stop := by
  cases h with
  | atEnd => exact Nat.le_refl _
  | widened => exact Nat.le_add_right ..
  | whole => exact Nat.le_add_right ..

theorem stop_le (h : d.Shows source r) : r.stop ≤ utf8Size source := by
  cases h with
  | atEnd => exact Nat.le_refl _
  | @widened front back c =>
    have hc := c.utf8Size_pos
    simp only [utf8Size_append, utf8Size_cons]
    omega
  | whole => simp only [utf8Size_append]; omega

theorem isBoundary_start (h : d.Shows source r) : isBoundary r.start source = true := by
  cases h with
  | atEnd => exact isBoundary_utf8Size source
  | widened => exact isBoundary_utf8Size_append ..
  | whole => exact isBoundary_utf8Size_append ..

/-- There is something to point at, except at the end of the source. -/
theorem start_lt_stop (h : d.Shows source r) : r.start < r.stop ∨ r.start = utf8Size source := by
  cases h with
  | atEnd => exact Or.inr rfl
  | widened => exact Or.inl (Nat.lt_succ_self _)
  | whole hp => exact Or.inl (Nat.lt_add_of_pos_right (utf8Size_pos hp))

/-- **A shown range ends between characters** unless the diagnostic cuts one. -/
theorem isBoundary_stop_iff (h : d.Shows source r) :
    isBoundary r.stop source = true ↔ ¬ d.Cuts source := by
  cases h with
  | atEnd h =>
    refine iff_of_true (isBoundary_utf8Size source) ?_
    rintro ⟨front, c, back, rfl, hc, hcut⟩
    obtain ⟨hstart, -⟩ := ByteRange.mk.inj (Option.some.inj (h.symm.trans hcut))
    rw [utf8Size_append, utf8Size_cons] at hstart
    omega
  | @widened front back c h =>
    rw [isBoundary_add_append, isBoundary_one_cons]
    have hc := c.utf8Size_pos
    constructor
    · rintro hone ⟨front', c', back', hsource, hc', hcut⟩
      obtain ⟨hstart, -⟩ := ByteRange.mk.inj (Option.some.inj (h.symm.trans hcut))
      cases eq_of_append_eq_append hsource hstart
      omega
    · intro hno
      by_contra hne
      exact hno ⟨front, c, back, rfl, by omega, h⟩
  | @whole front part back hp h =>
    have hend := isBoundary_utf8Size_append (front ++ part) back
    rw [List.append_assoc, utf8Size_append] at hend
    refine iff_of_true hend ?_
    rintro ⟨front', c, back', -, -, hcut⟩
    have hpart := utf8Size_pos hp
    obtain ⟨hstart, hstop⟩ := ByteRange.mk.inj (Option.some.inj (h.symm.trans hcut))
    omega

end Shows

/-! ## Snippets and reports -/

variable {colored : Bool} {path : Option String} {cut : CutCharacter}

theorem exists_shownRange_of_cuts (h : d.Cuts source) : ∃ r, d.shownRange source = some r := by
  obtain ⟨front, c, back, -, -, hrange⟩ := h
  exact ⟨_, congrArg _ hrange⟩

theorem snippet_eq_error_iff : d.snippet colored path source = .error cut ↔
    d.Cuts source ∧ d.shownRange source = some cut.range := by
  unfold snippet
  cases hr : d.shownRange source with
  | none => exact ⟨nofun, fun h => nomatch h.2⟩
  | some r =>
    have hstop := (shows_of_shownRange hr).isBoundary_stop_iff
    dsimp only
    split
    · next hb => exact ⟨nofun, fun h => absurd h.1 (hstop.mp hb)⟩
    · next hb =>
      have hcuts : d.Cuts source := not_not.mp (mt hstop.mpr hb)
      constructor
      · intro h
        cases h
        exact ⟨hcuts, rfl⟩
      · rintro ⟨-, h⟩
        cases h
        rfl

theorem exists_snippet_eq_ok (h : ¬ d.Cuts source) :
    ∃ text, d.snippet colored path source = .ok text := by
  cases hs : d.snippet colored path source with
  | ok text => exact ⟨text, rfl⟩
  | error cut => exact absurd (snippet_eq_error_iff.mp hs).1 h

end Diagnostic

namespace Report

variable {source : String} {path : Option String} {colored : Bool} {front back ds : List Diagnostic}
  {d : Diagnostic} {r : ByteRange}

theorem exists_render_eq_ok (h : ∀ d ∈ ds, ¬ d.Cuts source.toList) :
    ∃ text, render { source := some source, path, colored } ds = .ok text := by
  have hsnippets : ∀ d ∈ ds, ∃ text, d.snippet colored path source.toList = .ok text :=
    fun d hd => Diagnostic.exists_snippet_eq_ok (h d hd)
  obtain ⟨texts, htexts⟩ := exists_mapM_eq_ok hsnippets
  exact ⟨String.join texts, congrArg (Except.map String.join) htexts⟩

/-- **The first cut character** ends a report. -/
theorem render_of_first (h : ∀ e ∈ front, ¬ e.Cuts source.toList) (hd : d.Cuts source.toList)
    (hr : d.shownRange source.toList = some r) :
    render { source := some source, path, colored } (front ++ d :: back) = .error ⟨r⟩ := by
  have hsnippets : ∀ e ∈ front, ∃ text, e.snippet colored path source.toList = .ok text :=
    fun e he => Diagnostic.exists_snippet_eq_ok (h e he)
  have hfirst : d.snippet colored path source.toList = .error ⟨r⟩ :=
    Diagnostic.snippet_eq_error_iff.mpr ⟨hd, hr⟩
  exact congrArg (Except.map String.join) (mapM_of_first hsnippets hfirst)

/-- **Reports and characters.** The range that a snippet shows is within the source, begins in front
of a character or at the end of the source, and is not empty unless it is at the end. It ends
between two characters, or at an end, exactly if the diagnostic does not cut a character; and the
report on a list of diagnostics succeeds exactly if none of them does. -/
theorem rendered_iff_uncut (source : String) (path : Option String) (colored : Bool)
    (ds : List Diagnostic) :
    (∀ (d : Diagnostic) (r : ByteRange), d.shownRange source.toList = some r →
      r.start ≤ r.stop ∧ r.stop ≤ utf8Size source.toList ∧
      isBoundary r.start source.toList = true ∧
      (r.start < r.stop ∨ r.start = utf8Size source.toList) ∧
      (isBoundary r.stop source.toList = true ↔ ¬ d.Cuts source.toList)) ∧
    ((∃ text, render { source := some source, path, colored } ds = .ok text) ↔
      ∀ d ∈ ds, ¬ d.Cuts source.toList) := by
  refine ⟨fun d r h => ?_, ?_, exists_render_eq_ok⟩
  · have hshows := Diagnostic.shows_of_shownRange h
    exact ⟨hshows.start_le_stop, hshows.stop_le, hshows.isBoundary_start, hshows.start_lt_stop,
      hshows.isBoundary_stop_iff⟩
  · rintro ⟨text, htext⟩
    rcases inTurn_or_first (fun _ d => ¬ Diagnostic.Cuts d source.toList) ds with
      h | ⟨front, d, back, rfl, hfront, hd⟩
    · exact inTurn_iff_forall.mp h
    · have hcuts := not_not.mp hd
      obtain ⟨r, hr⟩ := Diagnostic.exists_shownRange_of_cuts hcuts
      rw [render_of_first (inTurn_iff_forall.mp hfront) hcuts hr] at htext
      cases htext

/-- An empty range in front of a character of two bytes. -/
theorem empty_range_cuts_character :
    let origin := Origin.ofPosition ⟨1, 1, 0⟩
    let d : Diagnostic := .permutation { problem := .nonexistentBase "v2" "v1", origin }
    d.origin.position.byteRange ['é'] = some ⟨0, 0⟩ ∧ d.shownRange ['é'] = some ⟨0, 1⟩ ∧
      isBoundary 1 ['é'] = false ∧ render { source := some "é" } [d] = .error ⟨⟨0, 1⟩⟩ := by
  decide

end Report

end VersionedTypes
