import VersionedTypes.Json.Printer
import VersionedTypes.Json.Reader.Value
import VersionedTypes.Proofs.Lists

/-!
# Readers on printed text

What is printed without spaces is read back piece by piece. A reader is described by what it gives
for a text and what it leaves of it. Such descriptions are put together along the binds of a reader.

* `Reads`, `Reads.bind`: what a reader gives and leaves;
* `Opens`, `Delimited`: the texts that a value can begin, and those that can follow a value;
* **`reads_readString`**, **`reads_readNumber`**: printed strings and natural numbers;
* **`reads_readItems`**, **`reads_readMembers`**: the inside of printed lists and objects, if what
  reads an item or a member takes each of them.
-/

namespace VersionedTypes.Json.Reader

variable {α β σ : Type} {r : Reader α} {text mid rest cs : List Char} {a : α} {b : β} {c : Char}
  {first : Bool}

/-! ## What a reader gives and what it leaves -/

/-- On `text` the reader gives `a` and leaves `rest`, wherever the text stands. -/
def Reads (r : Reader α) (text : List Char) (a : α) (rest : List Char) : Prop :=
  ∀ offset, ∃ stop, r ⟨text, offset⟩ = .ok (a, ⟨rest, stop⟩)

theorem reads_pure (a : α) (rest : List Char) : Reads (pure a) rest a rest :=
  fun offset => ⟨offset, rfl⟩

theorem Reads.bind {f : α → Reader β} (h : Reads r text a mid) (hf : Reads (f a) mid b rest) :
    Reads (r >>= f) text b rest := by
  intro offset
  obtain ⟨middle, hr⟩ := h offset
  change ∃ stop, (r ⟨text, offset⟩ >>= fun p => f p.1 p.2) = _
  rw [hr]
  exact hf middle

theorem Reads.map (f : α → β) (h : Reads r text a rest) : Reads (f <$> r) text (f a) rest := by
  intro offset
  obtain ⟨stop, hr⟩ := h offset
  change ∃ stop, (r ⟨text, offset⟩ >>= fun p => pure (f p.1, p.2)) = _
  rw [hr]
  exact ⟨stop, rfl⟩

theorem Reads.get {f : Cursor → Reader β} (h : ∀ offset, Reads (f ⟨text, offset⟩) text b rest) :
    Reads (get >>= f) text b rest := fun offset => h offset offset

theorem reads_peek (text : List Char) : Reads peek text text.head? text :=
  fun offset => ⟨offset, rfl⟩

theorem reads_advance (c : Char) (rest : List Char) : Reads advance (c :: rest) () rest :=
  fun _ => ⟨_, rfl⟩

theorem reads_takeWhile {p : Char → Bool} (h : ∀ c ∈ cs, p c = true)
    (hr : ∀ c ∈ rest.head?, p c = false) : Reads (takeWhile p) (cs ++ rest) cs rest := by
  have hrest : rest.takeWhile p = [] ∧ rest.dropWhile p = rest := by
    cases rest with
    | nil => exact ⟨rfl, rfl⟩
    | cons c rest =>
      have hc : ¬ p c = true := Bool.not_eq_true _ ▸ hr c rfl
      exact ⟨List.takeWhile_cons_of_neg hc, List.dropWhile_cons_of_neg hc⟩
  intro offset
  rw [takeWhile, List.takeWhile_append_of_pos h, List.dropWhile_append_of_pos h, hrest.1, hrest.2,
    List.append_nil]
  exact ⟨_, rfl⟩

theorem reads_token (h : isBlank c = false) (rest : List Char) :
    Reads token (c :: rest) (some c) (c :: rest) := by
  have hblank : Reads (takeWhile isBlank) ([] ++ c :: rest) [] (c :: rest) := by
    refine reads_takeWhile (fun _ h => absurd h List.not_mem_nil) fun c' hc' => ?_
    cases hc'
    exact h
  exact hblank.bind (reads_peek _)

/-! ## Words and brackets -/

theorem reads_expectWord (w rest : List Char) : Reads (expectWord w) (w ++ rest) () rest := by
  induction w with
  | nil => exact reads_pure () rest
  | cons c w ih =>
    refine (reads_peek _).bind ?_
    change Reads (if c = c then advance >>= fun _ => expectWord w else _) _ _ _
    rw [if_pos rfl]
    exact (reads_advance _ _).bind ih

theorem Reads.enclosed {ending : Reader Unit} (h : Reads r text a mid)
    (he : Reads ending mid () rest) : Reads (enclosed r ending) text a rest := by
  intro offset
  obtain ⟨middle, hr⟩ := h offset
  obtain ⟨stop, he⟩ := he middle
  rw [Reader.enclosed, hr]
  exact ⟨stop, congrArg (Except.map _) he⟩

theorem reads_endOfList (rest : List Char) : Reads endOfList (']' :: rest) () rest :=
  (reads_token rfl _).bind (reads_advance _ _)

theorem reads_endOfObject (rest : List Char) : Reads endOfObject ('\x7d' :: rest) () rest :=
  (reads_token rfl _).bind (reads_advance _ _)

theorem reads_colon (rest : List Char) : Reads colon (':' :: rest) () rest :=
  (reads_token rfl _).bind (reads_advance _ _)

theorem Reads.nested {inside : Nat → Reader α} {depth : Nat} (h : Reads (inside depth) text a rest)
    (c : Char) : Reads (nested inside (depth + 1)) (c :: text) a rest :=
  (reads_advance _ _).bind h

/-- A value can begin here: the next character is no blank and ends no list. -/
def Opens (text : List Char) : Prop := ∃ c rest, text = c :: rest ∧ isBlank c = false ∧ c ≠ ']'

theorem reads_noItems (first : Bool) (rest : List Char) :
    Reads (moreItems first) (']' :: rest) false (']' :: rest) :=
  (reads_token rfl _).bind (reads_pure _ _)

theorem reads_firstItem (h : Opens text) : Reads (moreItems true) text true text := by
  obtain ⟨c, rest, rfl, hb, hc⟩ := h
  refine (reads_token hb _).bind ?_
  split
  · contradiction
  · next h => exact absurd (Option.some.inj h) hc
  · exact reads_pure _ _

theorem reads_nextItem (h : Opens text) : Reads (moreItems false) (',' :: text) true text := by
  obtain ⟨c, rest, rfl, hb, hc⟩ := h
  refine (reads_token rfl _).bind ((reads_advance _ _).bind ((reads_token hb _).bind ?_))
  split
  · next h => exact absurd (Option.some.inj h) hc
  · exact reads_pure _ _
  · contradiction

theorem reads_noMembers (first : Bool) (rest : List Char) :
    Reads (moreMembers first) ('\x7d' :: rest) false ('\x7d' :: rest) :=
  (reads_token rfl _).bind (reads_pure _ _)

theorem reads_firstMember (rest : List Char) :
    Reads (moreMembers true) ('"' :: rest) true ('"' :: rest) :=
  (reads_token rfl _).bind (reads_pure _ _)

theorem reads_nextMember (rest : List Char) :
    Reads (moreMembers false) (',' :: '"' :: rest) true ('"' :: rest) :=
  (reads_token rfl _).bind ((reads_advance _ _).bind ((reads_token rfl _).bind (reads_pure _ _)))

/-! ## Strings -/

theorem length_le_length_flatMap {f : β → List Char} {xs : List β} (h : ∀ x ∈ xs, f x ≠ []) :
    xs.length ≤ (xs.flatMap f).length := by
  induction xs with
  | nil => exact Nat.le_refl _
  | cons x xs ih =>
    obtain ⟨hx, hxs⟩ := List.forall_mem_cons.mp h
    have hpos := List.length_pos_iff.mpr hx
    have := ih hxs
    rw [List.flatMap_cons, List.length_append, List.length_cons]
    omega

theorem escaped_ne_nil (c : Char) : escaped c ≠ [] := by
  unfold escaped
  split <;> first | exact List.cons_ne_nil _ _ | (split <;> exact List.cons_ne_nil _ _)

theorem reads_hexQuad {w x y z : Char} {n : Nat} (hsize : utf8Size [w, x, y, z] = 4)
    (hn : ([w, x, y, z].mapM Text.hexValue?).map (Text.digitsValue 16) = some n)
    (rest : List Char) : Reads hexQuad (w :: x :: y :: z :: rest) n rest := by
  obtain ⟨ds, hds, rfl⟩ := Option.map_eq_some_iff.mp hn
  intro offset
  refine ⟨offset + 4, ?_⟩
  simp only [hexQuad, List.take, List.drop, hsize, hds, Nat.lt_irrefl, if_false]

theorem reads_hexEscape (hc : c.toNat < 0x20) (rest : List Char) :
    Reads escape ('u' :: '0' :: '0' :: hexDigit (c.toNat / 16) :: hexDigit c.toNat :: rest) c
      rest := by
  -- controls are few enough to look at the digits of each
  have hdigits : ∀ n < 0x20, utf8Size ['0', '0', hexDigit (n / 16), hexDigit n] = 4 ∧
      (['0', '0', hexDigit (n / 16), hexDigit n].mapM Text.hexValue?).map (Text.digitsValue 16) =
        some n := by decide
  obtain ⟨hsize, hvalue⟩ := hdigits c.toNat hc
  have hlow : isLowSurrogate c.toNat = false := by simp [isLowSurrogate]; omega
  have hhigh : isHighSurrogate c.toNat = false := by simp [isHighSurrogate]; omega
  refine (reads_peek _).bind ((reads_advance _ _).bind ((reads_hexQuad hsize hvalue rest).bind ?_))
  rw [hlow, hhigh]
  change Reads (pure (Char.ofNat c.toNat)) _ _ _
  rw [Char.ofNat_toNat]
  exact reads_pure _ _

theorem reads_shortEscape {x : Char} (hx : shortEscape? x = some c) (hu : x ≠ 'u')
    (rest : List Char) : Reads escape (x :: rest) c rest := by
  refine (reads_peek _).bind ?_
  split
  · contradiction
  · next h => exact absurd (Option.some.inj h) hu
  · next h =>
    cases h
    rw [hx]
    exact (reads_advance _ _).bind (reads_pure _ _)

theorem reads_stringChars_escape {fuel : Nat} (hc : Reads escape mid c text)
    (h : Reads (stringChars fuel) text cs rest) :
    Reads (stringChars (fuel + 1)) ('\\' :: mid) (c :: cs) rest :=
  (reads_peek _).bind ((reads_advance _ _).bind (hc.bind (h.bind (reads_pure _ _))))

theorem reads_stringChars_plain {fuel : Nat} (hq : c ≠ '"') (hb : c ≠ '\\')
    (hc : isControl c = false) (h : Reads (stringChars fuel) text cs rest) :
    Reads (stringChars (fuel + 1)) (c :: text) (c :: cs) rest := by
  refine (reads_peek _).bind ?_
  split
  · contradiction
  · next h => exact absurd (Option.some.inj h) hq
  · next h => exact absurd (Option.some.inj h) hb
  · next h =>
    cases h
    rw [hc]
    exact (reads_advance _ _).bind (h.bind (reads_pure _ _))

/-- **A character of a string**, plain or escaped, is read back. -/
theorem reads_stringChars_cons {fuel : Nat} (h : Reads (stringChars fuel) text cs rest)
    (c : Char) : Reads (stringChars (fuel + 1)) (escaped c ++ text) (c :: cs) rest := by
  unfold escaped
  split
  -- the last case is that of no short escape: a control, or a character that stands for itself
  case h_8 hq hb _ _ _ _ _ =>
    split
    · next hc => exact reads_stringChars_escape (reads_hexEscape hc text) h
    · next hc => exact reads_stringChars_plain hq hb (decide_eq_false hc) h
  all_goals exact reads_stringChars_escape (reads_shortEscape rfl (by decide) text) h

theorem reads_stringChars {s : List Char} {fuel : Nat} (hf : s.length < fuel) (rest : List Char) :
    Reads (stringChars fuel) (s.flatMap escaped ++ '"' :: rest) s rest := by
  induction s generalizing fuel with
  | nil =>
    obtain ⟨fuel, rfl⟩ := Nat.exists_eq_add_one_of_ne_zero (Nat.ne_zero_of_lt hf)
    exact (reads_peek _).bind ((reads_advance _ _).bind (reads_pure _ _))
  | cons c s ih =>
    obtain ⟨fuel, rfl⟩ := Nat.exists_eq_add_one_of_ne_zero (Nat.ne_zero_of_lt hf)
    rw [List.flatMap_cons, List.append_assoc]
    exact reads_stringChars_cons (ih (Nat.lt_of_succ_lt_succ hf)) c

/-- **A printed string** is read back, whatever characters it has. -/
theorem reads_readString (s : String) (rest : List Char) :
    Reads readString (quoted s ++ rest) s rest := by
  obtain ⟨cs, rfl⟩ : ∃ cs, s = String.ofList cs := ⟨s.toList, s.ofList_toList.symm⟩
  have hlength : cs.length ≤ (cs.flatMap escaped).length :=
    length_le_length_flatMap fun c _ => escaped_ne_nil c
  have hquoted :
      quoted (String.ofList cs) ++ rest = '"' :: (cs.flatMap escaped ++ '"' :: rest) := by
    simp [quoted]
  rw [hquoted]
  refine (reads_advance _ _).bind (.get fun offset => ?_)
  refine (reads_stringChars ?_ rest).map String.ofList
  rw [List.length_append]
  omega

/-! ## Lists and objects -/

/-- A value can end in front of the text: it ends here, or goes on with a comma or a closing
bracket. -/
def Delimited (rest : List Char) : Prop := ∀ c ∈ rest.head?, c = ',' ∨ c = ']' ∨ c = '\x7d'

theorem delimited_flatMap (hc : c = ']' ∨ c = '\x7d') (chars : β → List Char) (xs : List β)
    (rest : List Char) : Delimited (xs.flatMap (fun x => ',' :: chars x) ++ c :: rest) := by
  cases xs with
  | nil => simpa [Delimited] using Or.inr hc
  | cons x xs => simp [Delimited]

theorem separated_cons (separator x : List Char) (xs : List (List Char)) :
    separated separator (x :: xs) = x ++ xs.flatMap (separator ++ ·) := by
  induction xs generalizing x with
  | nil => simp [separated]
  | cons y xs ih => rw [separated, ih, List.flatMap_cons, List.append_assoc, List.append_assoc]

section Items

variable {item : Reader α} {chars : β → List Char} {value : β → α} {xs : List β} {fuel : Nat}

theorem reads_itemsFrom (hopen : ∀ x ∈ xs, ∀ rest, Opens (chars x ++ rest))
    (hitem : ∀ x ∈ xs, ∀ rest, Delimited rest → Reads item (chars x ++ rest) (value x) rest)
    (hf : xs.length < fuel) :
    Reads (itemsFrom item fuel false) (xs.flatMap (fun x => ',' :: chars x) ++ ']' :: rest)
      (xs.map value) (']' :: rest) := by
  induction xs generalizing fuel with
  | nil =>
    obtain ⟨fuel, rfl⟩ := Nat.exists_eq_add_one_of_ne_zero (Nat.ne_zero_of_lt hf)
    exact (reads_noItems false rest).bind (reads_pure _ _)
  | cons x xs ih =>
    obtain ⟨fuel, rfl⟩ := Nat.exists_eq_add_one_of_ne_zero (Nat.ne_zero_of_lt hf)
    obtain ⟨hx, hxs⟩ := List.forall_mem_cons.mp hopen
    obtain ⟨hread, hreads⟩ := List.forall_mem_cons.mp hitem
    have hmore := ih hxs hreads (Nat.lt_of_succ_lt_succ hf)
    rw [List.flatMap_cons, List.append_assoc]
    refine (reads_nextItem (hx _)).bind ?_
    refine (hread _ (delimited_flatMap (.inl rfl) _ xs rest)).bind ?_
    exact hmore.bind (reads_pure _ _)

/-- **The items of a printed list** are read one after the other. -/
theorem reads_readItems (hopen : ∀ x ∈ xs, ∀ rest, Opens (chars x ++ rest))
    (hitem : ∀ x ∈ xs, ∀ rest, Delimited rest → Reads item (chars x ++ rest) (value x) rest) :
    Reads (readItems item true) (separated [','] (xs.map chars) ++ ']' :: rest) (xs.map value)
      (']' :: rest) := by
  refine .get fun offset => ?_
  cases xs with
  | nil => exact (reads_noItems true rest).bind (reads_pure _ _)
  | cons x xs =>
    obtain ⟨hx, hxs⟩ := List.forall_mem_cons.mp hopen
    obtain ⟨hread, hreads⟩ := List.forall_mem_cons.mp hitem
    have hlength : xs.length ≤ (xs.flatMap fun x => ',' :: chars x).length :=
      length_le_length_flatMap fun _ _ => List.cons_ne_nil _ _
    rw [List.map_cons, separated_cons, List.flatMap_map, List.append_assoc]
    refine (reads_firstItem (hx _)).bind ?_
    refine (hread _ (delimited_flatMap (.inl rfl) _ xs rest)).bind ?_
    refine (reads_itemsFrom hxs hreads ?_).bind (reads_pure _ _)
    simp only [List.length_append, List.singleton_append]
    rw [List.length_cons]
    omega

end Items

section Members

variable {member : String → σ → Reader σ} {state : List (String × Json) → σ}
  {done todo ms : List (String × Json)} {fuel : Nat}

/-- A member as it is printed. -/
def memberChars (m : String × Json) : List Char := quoted m.1 ++ ':' :: compactChars m.2

/-- What reads a member goes from `s` to `s'` on the value that stands behind the colon. -/
def Takes (member : String → σ → Reader σ) (m : String × Json) (s s' : σ) : Prop :=
  ∀ rest, Delimited rest → Reads (member m.1 s) (':' :: compactChars m.2 ++ rest) s' rest

theorem reads_membersFrom
    (h : InTurn (fun done m => Takes member m (state done) (state (done ++ [m]))) (done ++ todo))
    (hf : todo.length < fuel) :
    Reads (membersFrom member fuel false (state done))
      (todo.flatMap (fun m => ',' :: memberChars m) ++ '\x7d' :: rest) (state (done ++ todo))
      ('\x7d' :: rest) := by
  -- `done` grows by the member that was read, and with it the state
  induction todo generalizing fuel done with
  | nil =>
    obtain ⟨fuel, rfl⟩ := Nat.exists_eq_add_one_of_ne_zero (Nat.ne_zero_of_lt hf)
    rw [List.append_nil]
    exact (reads_noMembers false rest).bind (reads_pure _ _)
  | cons m todo ih =>
    obtain ⟨fuel, rfl⟩ := Nat.exists_eq_add_one_of_ne_zero (Nat.ne_zero_of_lt hf)
    have hm : Takes member m (state done) (state (done ++ [m])) := h done m todo rfl
    rw [List.append_cons done m todo] at h ⊢
    have hmore := ih h (Nat.lt_of_succ_lt_succ hf)
    rw [List.flatMap_cons, List.append_assoc, memberChars, List.cons_append, List.append_assoc]
    refine (reads_nextMember _).bind ((reads_readString _ _).bind ?_)
    exact (hm _ (delimited_flatMap (.inr rfl) _ todo rest)).bind hmore

/-- **The members of a printed object** are read one after the other, if what reads a member goes
from the state of those in front of it to the next state. -/
theorem reads_readMembers (state : List (String × Json) → σ)
    (h : InTurn (fun done m => Takes member m (state done) (state (done ++ [m]))) ms)
    (rest : List Char) :
    Reads (readMembers member (state [])) (separated [','] (ms.map memberChars) ++ '\x7d' :: rest)
      (state ms) ('\x7d' :: rest) := by
  refine .get fun offset => ?_
  cases ms with
  | nil => exact (reads_noMembers true rest).bind (reads_pure _ _)
  | cons m ms =>
    have hm : Takes member m (state []) (state [m]) := h [] m ms rfl
    rw [← List.singleton_append] at h
    have hlength : ms.length ≤ (ms.flatMap fun m => ',' :: memberChars m).length :=
      length_le_length_flatMap fun _ _ => List.cons_ne_nil _ _
    rw [List.map_cons, separated_cons, List.flatMap_map, List.append_assoc, memberChars,
      List.append_assoc]
    refine (reads_firstMember _).bind ((reads_readString _ _).bind ?_)
    refine (hm _ (delimited_flatMap (.inr rfl) _ ms rest)).bind ?_
    refine reads_membersFrom h ?_
    simp only [List.length_append, List.singleton_append, List.length_cons]
    omega

end Members

/-! ## Numbers -/

section Numbers

variable {n k : Nat}

theorem accumulate_eq {ds : List Char} (h : Nat.ofDigitChars 10 ds n ≤ maxSignificand) :
    accumulate n k ds = (Nat.ofDigitChars 10 ds n, k + ds.length) := by
  induction ds generalizing n k with
  | nil => rfl
  | cons d ds ih =>
    rw [Nat.ofDigitChars_cons, Nat.mul_comm] at h ⊢
    -- more digits only make the number larger
    have hle : n * 10 + (d.toNat - '0'.toNat) ≤ maxSignificand := by
      refine Nat.le_trans ?_ h
      rw [Nat.ofDigitChars_eq_ofDigitChars_zero]
      exact Nat.le_add_right_of_le (Nat.le_mul_of_pos_left _ (Nat.pow_pos (by omega)))
    rw [accumulate, if_neg (Nat.not_lt.mpr hle), ih h, List.length_cons, Nat.add_assoc,
      Nat.add_comm 1]

theorem isDigit_of_mem_toDigits (hc : c ∈ Nat.toDigits 10 n) : isDigit c = true :=
  Nat.isDigit_of_mem_toDigits (by omega) (by omega) hc

theorem ne_of_isDigit {x : Char} (hc : isDigit c = true) (hx : isDigit x = false) : c ≠ x := by
  rintro rfl
  rw [hx] at hc
  cases hc

theorem isBlank_of_isDigit (hc : isDigit c = true) : isBlank c = false := by
  have hne : ∀ x, isDigit x = false → c ≠ x := fun x => ne_of_isDigit hc
  simp only [isBlank, Bool.or_eq_false_iff, beq_eq_false_iff_ne]
  exact ⟨⟨⟨hne _ rfl, hne _ rfl⟩, hne _ rfl⟩, hne _ rfl⟩

theorem exists_toDigits_eq (n : Nat) :
    ∃ d ds, Nat.toDigits 10 n = d :: ds ∧ isDigit d = true ∧ (d = '0' → n = 0) := by
  induction n using Nat.strongRecOn with
  | ind n ih =>
    by_cases h : n < 10
    · have hdigit : isDigit n.digitChar = true := Nat.isDigit_digitChar.trans (decide_eq_true h)
      exact ⟨n.digitChar, [], Nat.toDigits_of_lt_base h, hdigit, Nat.digitChar_eq_zero.mp⟩
    · obtain ⟨d, ds, hd, hdigit, hzero⟩ := ih (n / 10) (by omega)
      rw [Nat.toDigits_of_base_le (by omega) (by omega), hd]
      exact ⟨d, _, rfl, hdigit, fun h => by have := hzero h; omega⟩

theorem toList_text (n : Nat) : (Number.integer n).text.toList = Nat.toDigits 10 n := by
  change (toString n).toList = _
  rw [Nat.toString_eq_ofList_toDigits, String.toList_ofList]

theorem Delimited.isDigit (h : Delimited rest) : ∀ c ∈ rest.head?, isDigit c = false := by
  intro c hc
  rcases h c hc with rfl | rfl | rfl <;> rfl

theorem reads_numberTail (n : Nat) (h : Delimited rest) :
    Reads (numberTail false n 0) rest (.integer n) rest := by
  have hnext : ∀ c ∈ rest.head?, c ≠ '.' ∧ c ≠ 'e' ∧ c ≠ 'E' := by
    intro c hc
    rcases h c hc with rfl | rfl | rfl <;> decide
  refine (reads_peek _).bind ?_
  split
  · next hc => exact absurd rfl (hnext _ hc).1
  · next hc => exact absurd rfl (hnext _ hc).2.1
  · next hc => exact absurd rfl (hnext _ hc).2.2
  · exact reads_pure _ _

theorem reads_unsigned (hn : n ≤ maxSignificand) (h : Delimited rest) :
    Reads (unsigned false) (Nat.toDigits 10 n ++ rest) (.integer n) rest := by
  by_cases hzero : n = 0
  · subst hzero
    refine (reads_peek _).bind ((reads_advance _ _).bind ((reads_peek _).bind ?_))
    split
    · next c hc =>
      rw [h.isDigit c hc]
      exact reads_numberTail 0 h
    · exact reads_numberTail 0 h
  have hdigits : ∀ c ∈ Nat.toDigits 10 n, isDigit c = true := fun _ => isDigit_of_mem_toDigits
  have hvalue : accumulate 0 0 (Nat.toDigits 10 n) = (n, (Nat.toDigits 10 n).length) := by
    rw [accumulate_eq (by rwa [Nat.ofDigitChars_ten_toDigits]), Nat.ofDigitChars_ten_toDigits,
      Nat.zero_add]
  obtain ⟨d, ds, hd, hdigit, hhead⟩ := exists_toDigits_eq n
  rw [hd] at hdigits hvalue ⊢
  refine (reads_peek _).bind ?_
  split
  · contradiction
  · next hc => exact absurd (hhead (Option.some.inj hc)) hzero
  · next hc =>
    cases hc
    rw [hdigit]
    refine (reads_takeWhile hdigits h.isDigit).bind ?_
    rw [hvalue]
    change Reads (numberTail false n ((d :: ds).length - (d :: ds).length)) _ _ _
    rw [Nat.sub_self]
    exact reads_numberTail n h

/-- **A printed natural number** of at most 64 bits is read back. -/
theorem reads_readNumber (hn : n ≤ maxSignificand) (h : Delimited rest) :
    Reads readNumber ((Number.integer n).text.toList ++ rest) (.integer n) rest := by
  have hnumber := reads_unsigned hn h
  obtain ⟨d, ds, hd, hdigit, -⟩ := exists_toDigits_eq n
  have hsign : (d :: ds ++ rest).head? ≠ some '-' :=
    fun hc => ne_of_isDigit hdigit rfl (Option.some.inj hc)
  rw [toList_text]
  rw [hd] at hnumber ⊢
  refine (reads_peek _).bind ?_
  rw [if_neg hsign]
  exact hnumber

end Numbers

end VersionedTypes.Json.Reader
