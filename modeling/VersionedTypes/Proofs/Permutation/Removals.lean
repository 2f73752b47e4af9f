import Mathlib.Data.List.Count
import VersionedTypes.Proofs.Permutation.Meaning

/-!
# Removals by count

Tags of variants may repeat, and so may the names of those to be removed. Each removal takes the
first variant of its name that is left, so all that counts is how often a tag is named. The removals
can be done iff no tag is named more often than there are variants of it, and then they take the
first variants of each tag, as many as it is named, whatever the order of the names.

* `variantCount`, `variantCount_removeVariants`: how many variants of a tag there are, and are left;
* **`removable_iff_count_le`**: when removals can be done;
* `withoutFirst`, **`removeVariants_eq_withoutFirst`**: what they leave, place by place;
* `FirstExcess`, `SumEdit.applyTo_eq_error_iff`: the name at which they stop;
* **`SumEdit.removals_counted`**: an edit is removals by count and then additions.
-/

namespace VersionedTypes

variable {variants : List ProductType} {v : ProductType} {names : List String} {name tag : String}

/-! ## Counting variants -/

/-- The number of variants of the given tag. -/
def variantCount (variants : List ProductType) (tag : String) : Nat :=
  variants.countP (·.tag == tag)

theorem variantCount_eq_count :
    variantCount variants tag = (variants.map ProductType.tag).count tag := countP_key_eq_count

theorem variantCount_pos_iff :
    0 < variantCount variants tag ↔ tag ∈ variants.map ProductType.tag := by
  rw [variantCount_eq_count, List.count_pos_iff]

theorem map_tag_removeVariants :
    (removeVariants variants names).map ProductType.tag =
      (variants.map ProductType.tag).diff names := by
  induction names using List.reverseRecOn with
  | nil => rfl
  | append_singleton names name ih =>
    rw [removeVariants_concat, List.diff_append, ← ih, List.diff_cons, List.diff_nil,
      List.erase_eq_eraseP', List.eraseP_map]
    rfl

theorem variantCount_removeVariants :
    variantCount (removeVariants variants names) tag =
      variantCount variants tag - names.count tag := by
  rw [variantCount_eq_count, map_tag_removeVariants, List.count_diff, ← variantCount_eq_count]

/-- One more removal can be done iff its name was taken less often than there are variants of it. -/
theorem mem_tags_removeVariants_iff :
    name ∈ (removeVariants variants names).map ProductType.tag ↔
      names.count name < variantCount variants name := by
  rw [← variantCount_pos_iff, variantCount_removeVariants, Nat.sub_pos_iff_lt]

/-! ## When removals can be done -/

theorem count_concat : (names ++ [name]).count tag =
    if name = tag then names.count tag + 1 else names.count tag := by
  rw [List.count_append, List.count_singleton]
  by_cases h : name = tag
  · simp [h]
  · simp [h]

/-- Each name, taken in order, has been named no more often than there are variants of it. -/
theorem removable_iff_inTurn :
    Removable variants names ↔
      InTurn (fun earlier name => (earlier ++ [name]).count name ≤ variantCount variants name)
        names := by
  unfold Removable InTurn
  simp only [mem_tags_removeVariants_iff, count_concat, if_pos, Nat.succ_le_iff]

/-- **Removals can be done** iff no tag is named more often than there are variants of it. -/
theorem removable_iff_count_le :
    Removable variants names ↔ ∀ t, names.count t ≤ variantCount variants t := by
  induction names using List.reverseRecOn with
  | nil => exact iff_of_true (inTurn_nil _) fun t => by simp
  | append_singleton names name ih =>
    have hstep : Removable variants (names ++ [name]) ↔
        Removable variants names ∧ names.count name < variantCount variants name := by
      rw [← mem_tags_removeVariants_iff]
      exact inTurn_concat
    rw [hstep, ih]
    constructor
    · rintro ⟨h, hname⟩ t
      rw [count_concat]
      split
      · next ht => exact ht ▸ hname
      · exact h t
    · intro h
      refine ⟨fun t => ?_, ?_⟩
      · exact Nat.le_trans ((List.sublist_append_left names [name]).count_le t) (h t)
      · have hname := h name
        rwa [count_concat, if_pos rfl] at hname

theorem removable_append_iff {rest : List String} :
    Removable variants (names ++ rest) ↔
      Removable variants names ∧ Removable (removeVariants variants names) rest := by
  simp only [removable_iff_count_le, variantCount_removeVariants, List.count_append]
  constructor
  · intro h
    exact ⟨fun t => Nat.le_trans (Nat.le_add_right _ _) (h t), fun t => by have := h t; omega⟩
  · rintro ⟨h, hrest⟩ t
    have := h t
    have := hrest t
    omega

/-! ## What removals leave -/

/-- The variants but for the first ones of each tag, as many as the tag is named: a variant stays
iff there are enough of its tag in front of it. -/
def withoutFirst (variants : List ProductType) (names : List String) : List ProductType :=
  (variants.zipIdx.filter fun x =>
    names.count x.1.tag ≤ variantCount (variants.take x.2) x.1.tag).map Prod.fst

theorem withoutFirst_concat :
    withoutFirst (variants ++ [v]) names =
      withoutFirst variants names ++
        if names.count v.tag ≤ variantCount variants v.tag then [v] else [] := by
  have hfront : (variants.zipIdx.filter fun x =>
      names.count x.1.tag ≤ variantCount ((variants ++ [v]).take x.2) x.1.tag) =
        variants.zipIdx.filter fun x =>
          names.count x.1.tag ≤ variantCount (variants.take x.2) x.1.tag := by
    refine List.filter_congr fun x hx => ?_
    have hlt := List.snd_lt_of_mem_zipIdx hx
    rw [List.take_append_of_le_length (by omega)]
  unfold withoutFirst
  rw [List.zipIdx_append, List.filter_append, List.map_append, hfront]
  congr 1
  by_cases h : names.count v.tag ≤ variantCount variants v.tag
  · simp [h]
  · simp [h]

/-- The last variant is taken out only when there are too few of its tag in front of it. -/
theorem removeVariants_concat_variant :
    removeVariants (variants ++ [v]) names =
      removeVariants variants names ++
        if names.count v.tag ≤ variantCount variants v.tag then [v] else [] := by
  induction names using List.reverseRecOn with
  | nil => simp
  | append_singleton names name ih =>
    rw [removeVariants_concat, removeVariants_concat, ih, count_concat]
    by_cases hleft : name ∈ (removeVariants variants names).map ProductType.tag
    · -- a variant of the name is left in front, and it is the one that goes
      have hlt := mem_tags_removeVariants_iff.mp hleft
      rw [eraseP_key_append_of_mem hleft]
      congr 1
      by_cases hname : name = v.tag
      · subst hname
        rw [if_pos (Nat.le_of_lt hlt), if_pos rfl, if_pos (Nat.succ_le_of_lt hlt)]
      · rw [if_neg hname]
    · -- none is left in front, so the last variant goes if it has the name
      have hle := Nat.not_lt.mp (mt mem_tags_removeVariants_iff.mpr hleft)
      rw [eraseP_key_append_of_not_mem hleft, eraseP_key_of_not_mem hleft]
      congr 1
      by_cases hname : name = v.tag
      · subst hname
        have hnone : ¬ names.count v.tag + 1 ≤ variantCount variants v.tag := by omega
        rw [if_pos rfl, if_neg hnone]
        split
        · simp
        · rfl
      · rw [if_neg hname]
        split
        · rw [List.eraseP_of_forall_not (by simpa using Ne.symm hname)]
        · rfl

@[simp] theorem removeVariants_of_nil : removeVariants [] names = [] :=
  List.eq_nil_iff_forall_not_mem.mpr fun v hv => by simpa using mem_of_mem_removeVariants hv

/-- **What removals leave**: all but the first variants of each tag, as many as it is named. -/
theorem removeVariants_eq_withoutFirst :
    removeVariants variants names = withoutFirst variants names := by
  induction variants using List.reverseRecOn with
  | nil => exact removeVariants_of_nil
  | append_singleton variants v ih => rw [removeVariants_concat_variant, withoutFirst_concat, ih]

theorem removeVariants_of_nodup (hn : (variants.map ProductType.tag).Nodup) :
    removeVariants variants names = variants.filter (·.tag ∉ names) := by
  have h : removeVariants (variants ++ []) names =
      variants.filter (·.tag ∉ names) ++ removeVariants [] names :=
    removeVariants_append_of_disjoint hn (by simp)
  rwa [List.append_nil, removeVariants_of_nil, List.append_nil] at h

theorem removeVariants_of_back {front back : List ProductType}
    (hn : ((front ++ back).map ProductType.tag).Nodup)
    (hnames : ∀ t, t ∈ back.map ProductType.tag ↔ t ∈ names) :
    removeVariants (front ++ back) names = front := by
  have hdisjoint := (List.nodup_append.mp (List.map_append ▸ hn)).2.2
  have hfront : ∀ v ∈ front, v.tag ∉ names := fun v hv hname =>
    hdisjoint _ (List.mem_map_of_mem hv) _ ((hnames _).mpr hname) rfl
  have hback : ∀ v ∈ back, v.tag ∈ names := fun v hv => (hnames _).mp (List.mem_map_of_mem hv)
  rw [removeVariants_of_nodup hn, List.filter_append,
    List.filter_eq_self.mpr (by simpa using hfront),
    List.filter_eq_nil_iff.mpr (by simpa using hback), List.append_nil]

/-! ## Where removals stop -/

/-- The first of the names that, with those in front of it, is named more often than there are
variants of it. -/
def FirstExcess (variants : List ProductType) (names : List String) (name : String) : Prop :=
  ∃ done rest, names = done ++ name :: rest ∧
    variantCount variants name < (done ++ [name]).count name ∧
    InTurn (fun earlier t => (earlier ++ [t]).count t ≤ variantCount variants t) done

theorem removable_or_firstExcess (variants : List ProductType) (names : List String) :
    Removable variants names ∨ ∃ name, FirstExcess variants names name := by
  rw [removable_iff_inTurn]
  rcases inTurn_or_first (fun earlier t => (earlier ++ [t]).count t ≤ variantCount variants t)
    names with h | ⟨done, name, rest, hnames, hdone, hname⟩
  · exact Or.inl h
  · exact Or.inr ⟨name, done, rest, hnames, Nat.not_le.mp hname, hdone⟩

namespace SumEdit

variable {e : SumEdit} {s s' : SumType}

theorem applyTo_of_firstExcess (h : FirstExcess s.variants e.removed name) :
    e.applyTo s = .error name := by
  obtain ⟨done, rest, hremoved, hexcess, hdone⟩ := h
  refine applyTo_of_missing hremoved (removable_iff_inTurn.mpr hdone) ?_
  rw [mem_tags_removeVariants_iff, Nat.not_lt]
  rwa [count_concat, if_pos rfl, Nat.lt_succ_iff] at hexcess

theorem applyTo_eq_ok_iff :
    e.applyTo s = .ok s' ↔
      (∀ t, e.removed.count t ≤ variantCount s.variants t) ∧
        s' = { s with variants := withoutFirst s.variants e.removed ++ e.added } := by
  rw [← removable_iff_count_le, ← removeVariants_eq_withoutFirst]
  rcases removable_or_firstExcess s.variants e.removed with h | ⟨name, h⟩
  · rw [applyTo_of_removable h, Except.ok.injEq, eq_comm]
    exact (and_iff_right h).symm
  · have hno : ¬ Removable s.variants e.removed := fun hr => by
      have herr := applyTo_of_firstExcess h
      rw [applyTo_of_removable hr] at herr
      cases herr
    rw [applyTo_of_firstExcess h]
    exact iff_of_false nofun fun hr => hno hr.1

theorem applyTo_eq_error_iff :
    e.applyTo s = .error name ↔ FirstExcess s.variants e.removed name := by
  refine ⟨fun he => ?_, applyTo_of_firstExcess⟩
  rcases removable_or_firstExcess s.variants e.removed with h | ⟨name', h⟩
  · rw [applyTo_of_removable h] at he
    cases he
  · rw [applyTo_of_firstExcess h] at he
    cases he
    exact h

end SumEdit

/-- **An edit is removals by count and then additions.** It can be done iff no tag is named for
removal more often than the sum has variants of it. Then nothing but the variants of the sum is
changed: the first ones of each tag go, as many as the tag is named, and the added ones follow the
others, so the order of the removals does not matter. Otherwise the edit stops at the first name
that was named once too often, whatever it adds, and a permutation reports this variant at the place
of the edit. -/
theorem SumEdit.removals_counted (e : SumEdit) (s : SumType) :
    (∀ s', e.applyTo s = .ok s' ↔
      (∀ t, e.removed.count t ≤ variantCount s.variants t) ∧
        s' = { s with variants := withoutFirst s.variants e.removed ++ e.added }) ∧
    (∀ removed, removed.Perm e.removed →
      ∀ s', { e with removed := removed }.applyTo s = .ok s' ↔ e.applyTo s = .ok s') ∧
    (∀ name, e.applyTo s = .error name ↔ FirstExcess s.variants e.removed name) ∧
    (∀ added name,
      { e with added := added }.applyTo s = .error name ↔ e.applyTo s = .error name) ∧
    ∀ (p : Permutation) (front back : List UserType) (name : String), e.tag ∉ Builtin.tags →
      s.tag = e.tag → (∀ t ∈ front, t.tag ≠ e.tag) → e.applyTo s = .error name →
        p.editType (front ++ .sum s :: back) e =
          .error (.illegal ⟨.nonexistentVariant p.tag e.tag name, e.origin⟩) := by
  refine ⟨fun s' => applyTo_eq_ok_iff, fun removed hperm s' => ?_,
    fun name => applyTo_eq_error_iff, fun added name => ?_,
    fun p front back name hb ht hfront he => ?_⟩
  · have hwithout : withoutFirst s.variants removed = withoutFirst s.variants e.removed := by
      unfold withoutFirst
      simp only [hperm.count_eq]
    rw [applyTo_eq_ok_iff, applyTo_eq_ok_iff]
    simp only [hperm.count_eq, hwithout]
  · rw [applyTo_eq_error_iff, applyTo_eq_error_iff]
  · rw [Permutation.editType_append_sum hb ht hfront, he]
    rfl

/-- Four variants of two tags, of which three are named: the last literal stays. A variant that the
edit adds is not there to be removed. -/
theorem SumEdit.removals_counted_of_repeats :
    let lit (encoding : Encoding) (removed : Bool) : ProductType :=
      { tag := "lit", encoding, removed }
    let s : SumType :=
      { tag := "expr",
        variants := [lit .keyed false, { tag := "add" }, lit .positional false,
          lit .keyed true] }
    let e : SumEdit :=
      { tag := "expr", removed := ["lit", "add", "lit"], added := [{ tag := "sub" }] }
    let f : SumEdit :=
      { tag := "expr", removed := ["lit", "sub", "add"], added := [{ tag := "sub" }] }
    let s' : SumType := { s with variants := [lit .keyed true, { tag := "sub" }] }
    let p : Permutation := { tag := "v2", base := "v1" }
    (∀ t, e.removed.count t ≤ variantCount s.variants t) ∧
      { e with removed := ["add", "lit", "lit"] }.applyTo s = .ok s' ∧
      FirstExcess s.variants f.removed "sub" ∧
      { f with added := [] }.applyTo s = .error "sub" ∧
      p.editType ([.product { tag := "point" }] ++ .sum s :: [.sum s]) f =
        .error (.illegal ⟨.nonexistentVariant "v2" "expr" "sub", Origin.blank⟩) := by
  intro lit s e f s' p
  obtain ⟨hok, hreorder, -, -, -⟩ := removals_counted e s
  obtain ⟨-, -, hfirst, hadded, hreport⟩ := removals_counted f s
  have he : e.applyTo s = .ok s' := by decide
  have hf : f.applyTo s = .error "sub" := by decide
  refine ⟨((hok s').mp he).1, (hreorder _ (by decide) s').mpr he, (hfirst _).mp hf,
    (hadded [] _).mpr hf, hreport p _ _ _ (by decide) rfl (by decide) hf⟩

end VersionedTypes
