import VersionedTypes.Proofs.Resolution.Records

/-!
# Published and rejected tags

A tag that is rejected is never published afterwards. The converse fails: a permutation that reuses
a published tag and comes to nothing has the tag rejected, and from then on the permutations of the
published domain are skipped without a mistake. This is the only way in which a domain is lost.

* `Reachable.get?_eq_none_of_rejected`: what is rejected and not published stays so;
* `Reapplies`: the permutations that reuse a published tag can all be applied;
* `Reapplies.isPublished_eq_false`: then no published tag is rejected, at any time;
* **`unshadowed_iff_reapplies`**: only then, and then nothing is skipped in silence.
-/

namespace VersionedTypes

namespace Resolution

open Declaration Relation

variable {ds : List Declaration} {k k' : Config} {s s' : Resolution} {c : Declaration} {o : Outcome}
  {p : Permutation} {d : Domain} {tag : String}

/-! ## Rejected tags are not published later -/

theorem Event.get?_eq_none_of_rejected (h : Event s c o s') (hr : s.isRejected tag = true)
    (hn : s.domains.get? tag = none) : s'.domains.get? tag = none := by
  rw [Option.eq_none_iff_forall_ne_some] at hn ⊢
  intro d hd
  rcases h.get?_eq_some_iff.mp hd with hd | ⟨ho, rfl⟩
  · exact hn d hd
  · have := (isSettled_eq_false_iff.mp (h.published ho).2.2).2
    rw [hr] at this
    cases this

theorem Reachable.get?_eq_none_of_rejected (h : Reachable ds k) (hl : Leads ds k k')
    (hr : k.state.isRejected tag = true) (hn : k.state.domains.get? tag = none) :
    k'.state.domains.get? tag = none := by
  induction hl with
  | refl => exact hn
  | tail hkl hstep ih =>
    have hk := ReflTransGen.trans h hkl
    rcases Reachable.event hk hstep with e | ⟨c, o, -, he⟩
    · exact e ▸ ih
    · exact he.get?_eq_none_of_rejected ((h.grows hkl).rejected _ hr) ih

/-! ## Reused tags -/

/-- Every permutation that has the tag of a published domain can be applied to the published
domains. -/
def Reapplies (ds : List Declaration) (s : Resolution) : Prop :=
  ∀ p, permutation p ∈ ds → s.isPublished p.tag = true → ∃ d, p.apply s.domains = .ok d

theorem Event.get?_eq_none_of_invalid (h : Event s c o s') (hr : o.rejects = true)
    (hv : o.verdict?.isSome = true) : s'.domains.get? c.name = none := by
  have hn : o.published? = none := by
    rw [Option.eq_none_iff_forall_ne_some]
    intro d hd
    rw [Outcome.rejects_of_published? hd] at hr
    cases hr
  have hs : ∀ d, (s.verdict d).rejects = true → s.domains.get? d.tag = none := by
    intro d hr
    rcases verdict_cases s d with ⟨-, hv⟩ | ⟨-, -, hv⟩ | ⟨hs, -, -⟩
    · rw [hv] at hr; cases hr
    · rw [hv] at hr; cases hr
    · exact isPublished_eq_false_iff.mp (isSettled_eq_false_iff.mp hs).1
  rw [h.domains_of_none hn]
  cases h with
  | declared d => exact hs d hr
  | derived _ _ hd =>
    have := hs _ hr
    rwa [Permutation.tag_of_applyTo hd] at this
  | _ => cases hv

theorem Event.isRejected_of_skipped (h : Event s (permutation p) .skipped s') :
    s.isRejected p.base = true := by
  cases h with
  | skipped hr => exact hr

theorem Explains.skipped_or_not_applied (h : s.Explains c o) (ho : o.rejects = true)
    (hv : o.verdict?.isSome = false) :
    ∃ p, c = permutation p ∧ (o = .skipped ∨ ∀ d, p.apply s.domains ≠ .ok d) := by
  cases h with
  | declared | derived => cases hv
  | refused hb he =>
    refine ⟨_, rfl, Or.inr fun d hd => ?_⟩
    rw [Permutation.apply_of_get? hb, he] at hd
    cases hd
  | skipped => exact ⟨_, rfl, Or.inl rfl⟩
  | unfounded hb | stranded hb =>
    refine ⟨_, rfl, Or.inr fun d hd => ?_⟩
    obtain ⟨base, hbase⟩ := Permutation.exists_base_of_apply hd
    rw [hb] at hbase
    cases hbase
  | _ => cases ho

/-- **No published tag is rejected**, at any time, if the permutations that reuse one can all be
applied: the first one to be skipped would have a base that was published and rejected before. -/
theorem Reapplies.isPublished_eq_false (hc : Reapplies ds s) (h : Reachable ds ⟨.answering [], s⟩)
    (hk : Reachable ds k) (ht : k.state.isRejected tag = true) : s.isPublished tag = false := by
  have hl := hk.leads h
  induction hk generalizing tag with
  | refl => cases ht
  | @tail k k' hr hstep ih =>
    have ih : ∀ tag, k.state.isRejected tag = true → s.isPublished tag = false :=
      fun _ ht => ih ht (.head hstep hl)
    rcases Reachable.event hr hstep with e | ⟨c, o, -, he⟩
    · exact ih _ (e ▸ ht)
    · rcases he.isRejected_iff.mp ht with hrej | ⟨ho, rfl⟩
      · exact ih _ hrej
      · have hr' : Reachable ds k' := hr.tail hstep
        have hmem : ⟨c, o⟩ ∈ s.records := by
          refine (hr'.grows hl).records.subset ?_
          rw [he.records]
          exact List.mem_concat_self
        cases hv : o.verdict?.isSome with
        | true =>
          exact isPublished_eq_false_iff.mpr
            (hr'.get?_eq_none_of_rejected hl ht (he.get?_eq_none_of_invalid ho hv))
        | false =>
          obtain ⟨p, rfl, hp⟩ := (h.explains hmem).skipped_or_not_applied ho hv
          rw [← Bool.not_eq_true]
          intro hpub
          have hds := h.mem_of_decided (mem_decided.mpr ⟨o, hmem, by rintro rfl; cases ho⟩)
          obtain ⟨d, hd⟩ := hc p hds hpub
          rcases hp with rfl | hp
          -- skipped: the base was rejected before, and is published all the same
          · obtain ⟨base, hb⟩ := Permutation.exists_base_of_apply hd
            have := ih _ he.isRejected_of_skipped
            rw [isPublished_of_get? hb] at this
            cases this
          · exact hp d hd

/-! ## Permutations that are not heard of -/

/-- What comes of a permutation is published, or it reports a mistake. -/
def Heard (s : Resolution) (p : Permutation) (o : Outcome) : Prop :=
  (∃ d, o.published? = some d ∧ p.apply s.domains = .ok d ∧ s.domains.get? p.tag = some d) ∨
    o.diagnostics ≠ []

/-- A permutation of a published domain is heard of, unless its base was rejected, too. -/
theorem Explains.heard (h : s.Explains (permutation p) o) (ho : o ≠ .deferred)
    (hb : s.isPublished p.base = true) (hr : s.isRejected p.base = false) : Heard s p o := by
  cases h with
  | deferred => exact absurd rfl ho
  | derived hbase ha hv =>
    rw [← Permutation.apply_of_get? hbase] at ha
    cases hv with
    | published _ hd => exact Or.inl ⟨_, rfl, ha, Permutation.tag_of_apply ha ▸ hd⟩
    | duplicate => exact Or.inr (List.cons_ne_nil _ _)
    | invalid he => exact Or.inr (mt List.map_eq_nil_iff.mp he)
  | refused => exact Or.inr (List.cons_ne_nil _ _)
  | skipped hrej => rw [hr] at hrej; cases hrej
  | unfounded => exact Or.inr (List.cons_ne_nil _ _)
  | stranded hbase => rw [isPublished_eq_false_iff.mpr hbase] at hb; cases hb

/-- **When no domain is lost.** No tag is ever both published and rejected, and every permutation of
a published domain has its result published or reports a mistake, exactly if the permutations that
reuse a published tag can all be applied to the published domains. -/
theorem unshadowed_iff_reapplies (ds : List Declaration) :
    ∃ s, ofDeclarations ds = .ok s ∧ Reachable ds ⟨.answering [], s⟩ ∧ s.decided.Perm ds ∧
      (((∀ k, Reachable ds k → ∀ tag, k.state.isPublished tag = true →
            k.state.isRejected tag = false) ∧
          ∀ p o, ⟨permutation p, o⟩ ∈ s.records → o ≠ .deferred → s.isPublished p.base = true →
            Heard s p o) ↔
        Reapplies ds s) := by
  obtain ⟨s, hs, h⟩ := exists_reachable ds
  refine ⟨s, hs, h, h.perm_decided, fun ⟨hdisjoint, _⟩ p hp hpub => ?_, fun hc => ?_⟩
  · obtain ⟨o, hr, ho⟩ := h.exists_record hp
    have hrej : o.rejects = false := by
      rw [← Bool.not_eq_true]
      intro hrej
      have := (h.recorded.rejected p.tag).mpr ⟨_, hr, hrej, rfl⟩
      rw [hdisjoint _ h p.tag hpub] at this
      cases this
    cases h.explains hr with
    | deferred => exact absurd rfl ho
    | derived hb ha => exact ⟨_, (Permutation.apply_of_get? hb).trans ha⟩
    | _ => cases hrej
  · have hdisjoint : ∀ k, Reachable ds k → ∀ tag, k.state.isPublished tag = true →
        k.state.isRejected tag = false := by
      intro k hk tag hpub
      rw [← Bool.not_eq_true]
      intro hrej
      have := hc.isPublished_eq_false h hk hrej
      rw [(hk.grows (hk.leads h)).isPublished hpub] at this
      cases this
    exact ⟨hdisjoint, fun p o hr ho hb => (h.explains hr).heard ho hb (hdisjoint _ h _ hb)⟩

/-- A permutation that fails under the tag of its base hides the base from the next permutation. -/
theorem shadowed_permutation :
    let v2 : Permutation := { tag := "v2", base := "v1" }
    let ds := [domain { tag := "v1" },
      permutation { tag := "v1", base := "v1", excluded := NameSet.empty.insert "int" },
      permutation v2]
    ∃ s, ofDeclarations ds = .ok s ∧ s.isPublished "v1" = true ∧ s.isRejected "v1" = true ∧
      s.isPublished "v2" = false ∧ ⟨permutation v2, .skipped⟩ ∈ s.records ∧
      ¬ Heard s v2 .skipped := by
  intro v2 ds
  have hv : (ofDeclarations ds).map (fun s => (s.isPublished "v1", s.isRejected "v1",
      s.isPublished "v2", decide (⟨permutation v2, .skipped⟩ ∈ s.records))) =
      .ok (true, true, false, true) := by
    decide +kernel
  obtain ⟨s, hs, -⟩ := exists_reachable ds
  rw [hs] at hv
  injection hv with hv
  simp only [Prod.mk.injEq, decide_eq_true_eq] at hv
  refine ⟨s, hs, hv.1, hv.2.1, hv.2.2.1, hv.2.2.2, ?_⟩
  rintro (⟨d, hd, -⟩ | hd)
  · cases hd
  · exact hd rfl

end Resolution

end VersionedTypes
