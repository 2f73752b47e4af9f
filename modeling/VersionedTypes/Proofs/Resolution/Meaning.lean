import VersionedTypes.Proofs.Resolution.Circles

/-!
# What a declaration list means

If no tag is declared twice, the declarations say which domains are published and which mistakes
are reported, without rounds and without an order of work: a valid plain domain is published; a
permutation is published when its base is and its result is valid; a permutation that is hopeless
is a mistake, and one that only depends on a mistake is not.

* `reports`: the mistakes reported for one declaration, with `Reachable.reports_eq`: those of its
  only record;
* `Reachable.unsettled_of_event`: when a declaration is decided the fate of its tag is open;
* `Fate`, `Reachable.fate`: what becomes of a permutation;
* **`resolution_of_distinct_tags`**: the meaning of every declaration.
-/

namespace VersionedTypes

namespace Resolution

open Declaration Relation

variable {ds : List Declaration} {k k' : Config} {s s' : Resolution} {c : Declaration} {o : Outcome}
  {p : Permutation} {d : Domain} {r r' : Record} {ms : List Diagnostic}

/-! ## One record for each declaration -/

/-- The mistakes that are reported for a declaration. -/
def reports (s : Resolution) (c : Declaration) : List Diagnostic :=
  (s.records.filter fun r => r.declaration = c).flatMap fun r => r.outcome.diagnostics

theorem Reachable.nodup_names (hn : (tags ds).Nodup) (h : Reachable ds ⟨.answering [], s⟩) :
    (s.plainRecords.map fun r => r.declaration.name).Nodup := by
  have := h.perm_plainRecords.map name
  rw [← tags_eq, List.map_map] at this
  exact this.nodup_iff.mpr hn

theorem Reachable.record_eq (hn : (tags ds).Nodup) (h : Reachable ds ⟨.answering [], s⟩)
    (hr : r ∈ s.plainRecords) (hr' : r' ∈ s.plainRecords)
    (e : r.declaration.name = r'.declaration.name) : r = r' :=
  List.inj_on_of_nodup_map (h.nodup_names hn) hr hr' e

theorem flatMap_filter_of_nil {α β : Type} {f : α → List β} {q : α → Bool} {xs : List α}
    (h : ∀ x ∈ xs, q x = false → f x = []) : (xs.filter q).flatMap f = xs.flatMap f := by
  induction xs with
  | nil => rfl
  | cons x xs ih =>
    obtain ⟨hx, hxs⟩ := List.forall_mem_cons.mp h
    cases hq : q x with
    | true => rw [List.filter_cons_of_pos hq, List.flatMap_cons, List.flatMap_cons, ih hxs]
    | false =>
      rw [List.filter_cons_of_neg (by simp [hq]), List.flatMap_cons, hx hq, ih hxs, List.nil_append]

/-- **Only one record** says what is reported for a plain domain or a permutation. -/
theorem Reachable.reports_eq (hn : (tags ds).Nodup) (h : Reachable ds ⟨.answering [], s⟩)
    (hr : r ∈ s.plainRecords) : s.reports r.declaration = r.outcome.diagnostics := by
  have hplain : s.plainRecords.filter (fun r' => r'.declaration = r.declaration) =
      (s.records.filter fun r' => r'.declaration = r.declaration).filter
        fun r' => r'.outcome ≠ .deferred ∧ r'.declaration.request? = none := by
    rw [plainRecords, List.filter_filter, List.filter_filter, List.filter_filter]
    refine List.filter_congr fun r' _ => ?_
    rw [Bool.eq_iff_iff]
    simp only [Bool.and_eq_true, decide_eq_true_eq, Option.isNone_iff_eq_none]
    tauto
  have hnil : ∀ r' ∈ s.records.filter (fun r' => r'.declaration = r.declaration),
      decide (r'.outcome ≠ .deferred ∧ r'.declaration.request? = none) = false →
        r'.outcome.diagnostics = [] := by
    intro r' hr' hq
    have hc := (mem_plainRecords.mp hr).2.2
    rw [← of_decide_eq_true (List.mem_filter.mp hr').2] at hc
    have ho : r'.outcome = .deferred := by simpa [hc] using hq
    rw [ho]
    rfl
  have hsingle : (s.plainRecords.filter fun r' => r'.declaration = r.declaration) = [r] := by
    have hcongr : (s.plainRecords.filter fun r' => r'.declaration = r.declaration) =
        s.plainRecords.filter fun r' => r' = r := by
      refine List.filter_congr fun r' hr' => decide_eq_decide.mpr ⟨fun e => ?_, fun e => e ▸ rfl⟩
      exact h.record_eq hn hr' hr (congrArg name e)
    rw [hcongr, List.filter_eq, List.count_eq_one_of_mem (.of_map _ (h.nodup_names hn)) hr]
    rfl
  rw [reports, ← flatMap_filter_of_nil hnil, ← hplain, hsingle]
  exact List.append_nil _

/-- The mistakes that are reported for requests. -/
def requestReports (s : Resolution) : List Diagnostic :=
  (s.records.filter fun r => r.declaration.request?.isSome).flatMap fun r => r.outcome.diagnostics

theorem Reachable.diagnostics_perm (hn : (tags ds).Nodup) (h : Reachable ds ⟨.answering [], s⟩) :
    s.diagnostics.Perm ((definitions ds).flatMap s.reports ++ s.requestReports) := by
  have hplain : s.plainRecords.flatMap (fun r => r.outcome.diagnostics) =
      (s.records.filter fun r => !r.declaration.request?.isSome).flatMap
        fun r => r.outcome.diagnostics := by
    have hnil : ∀ r ∈ s.records.filter (fun r => !r.declaration.request?.isSome),
        decide (r.outcome ≠ .deferred) = false → r.outcome.diagnostics = [] := by
      intro r _ hr
      have ho : r.outcome = .deferred := by simpa using hr
      rw [ho]
      rfl
    rw [← flatMap_filter_of_nil hnil, plainRecords, List.filter_comm]
    simp only [Option.not_isSome]
  have hreports : s.plainRecords.flatMap (fun r => r.outcome.diagnostics) =
      (s.plainRecords.map Record.declaration).flatMap s.reports := by
    rw [List.flatMap_map]
    exact List.flatMap_congr fun r hr => (h.reports_eq hn hr).symm
  have hsplit := (List.filter_append_perm (fun r : Record => r.declaration.request?.isSome)
    s.records).flatMap_right fun r => r.outcome.diagnostics
  rw [List.flatMap_append, ← hplain, hreports] at hsplit
  refine hsplit.symm.trans (List.perm_append_comm.trans ?_)
  exact (h.perm_plainRecords.flatMap_right s.reports).append_right _

/-- A tag is not both published and rejected. -/
theorem Reachable.isPublished_eq_false (hn : (tags ds).Nodup)
    (h : Reachable ds ⟨.answering [], s⟩) {tag : String} (ht : s.isRejected tag = true) :
    s.isPublished tag = false := by
  rw [isPublished_eq_false_iff, Option.eq_none_iff_forall_ne_some]
  intro d hd
  obtain ⟨r, hr, e, ho⟩ := h.exists_of_get? hd
  obtain ⟨r', hr', e', ho'⟩ := h.exists_of_isRejected ht
  obtain rfl := h.record_eq hn hr hr' (e.trans e'.symm)
  rw [Outcome.rejects_of_published? ho] at ho'
  cases ho'

/-! ## No duplicates -/

/-- When a declaration is decided the fate of its tag is open: otherwise another declaration of
this tag would have been decided before. -/
theorem Reachable.unsettled_of_event (hn : (tags ds).Nodup) (h : Reachable ds ⟨.answering [], s⟩)
    (hk : Reachable ds k) (he : Event k.state c o k'.state) (hl : Leads ds k' ⟨.answering [], s⟩)
    (hk' : Reachable ds k') (hc : c.request? = none) (ho : o ≠ .deferred) :
    k.state.isSettled c.name = false := by
  rw [← Bool.not_eq_true, hk.isSettled_iff_exists]
  rintro ⟨r, hr, e⟩
  -- the record that settled the tag and the one of this event would share a name
  obtain ⟨more, hs⟩ := (hk'.grows hl).records
  have hplain : s.plainRecords = k.state.plainRecords ++ ⟨c, o⟩ ::
      (more.filter fun r => r.outcome ≠ .deferred).filter
        fun r => r.declaration.request?.isNone := by
    have hs : s.records = k.state.records ++ [⟨c, o⟩] ++ more := by rw [← hs, he.records]
    rw [plainRecords, hs, List.filter_append, List.filter_append, List.filter_append,
      List.filter_append, List.append_assoc]
    simp [hc, ho, plainRecords]
  have := h.nodup_names hn
  rw [hplain, List.map_append, List.nodup_append] at this
  exact this.2.2 _ (List.mem_map_of_mem hr) _ (List.mem_map_of_mem List.mem_cons_self) e

theorem Event.isSettled_of_duplicate (h : Event s c o s') (ho : o.verdict? = some (.duplicate d)) :
    s.isSettled c.name = true := by
  have hv : ∀ d', s.verdict d' = .duplicate d → s.isSettled d'.tag = true := by
    intro d' hv
    rcases verdict_cases s d' with ⟨hs, -⟩ | ⟨-, -, hv'⟩ | ⟨-, -, hv'⟩
    · exact hs
    · rw [hv] at hv'; cases hv'
    · rw [hv] at hv'; cases hv'
  cases h with
  | declared d' => exact hv d' (Option.some.inj ho)
  | derived _ _ hd =>
    have := hv _ (Option.some.inj ho)
    rwa [Permutation.tag_of_applyTo hd] at this
  | _ => cases ho

theorem Reachable.verdict?_ne_duplicate (hn : (tags ds).Nodup)
    (h : Reachable ds ⟨.answering [], s⟩) (hr : r ∈ s.plainRecords) :
    r.outcome.verdict? ≠ some (.duplicate d) := by
  obtain ⟨hr, ho, hc⟩ := mem_plainRecords.mp hr
  obtain ⟨k, k', hk, hstep, he, hl⟩ := h.exists_origin hr
  intro hv
  have hs := he.isSettled_of_duplicate hv
  rw [h.unsettled_of_event hn hk he hl (hk.tail hstep) hc ho] at hs
  cases hs

/-! ## The meaning of a declaration -/

theorem Reachable.get?_domain (hn : (tags ds).Nodup) (h : Reachable ds ⟨.answering [], s⟩)
    (hd : domain d ∈ ds) :
    s.domains.get? d.tag = (if d.errors = [] then some d else none) ∧
      s.reports (domain d) = d.errors.map Diagnostic.validation := by
  obtain ⟨o, hr, ho⟩ := h.exists_record hd
  have hm : ⟨domain d, o⟩ ∈ s.plainRecords := mem_plainRecords.mpr ⟨hr, ho, rfl⟩
  have hrep : s.reports (domain d) = o.diagnostics := h.reports_eq hn hm
  rw [hrep]
  cases h.explains hr with
  | deferred => exact absurd rfl ho
  | declared hv =>
    cases hv with
    | published he hd => rw [if_pos he, he]; exact ⟨hd, rfl⟩
    | duplicate => exact absurd rfl (h.verdict?_ne_duplicate hn hm)
    | invalid he hrej =>
      rw [if_neg he]
      exact ⟨isPublished_eq_false_iff.mp (h.isPublished_eq_false hn hrej), rfl⟩

/-- **What becomes of a permutation**, and the mistakes that are reported for it. -/
inductive Fate (ds : List Declaration) (s : Resolution) (p : Permutation) : List Diagnostic → Prop
  | published {d : Domain} (hh : ¬ Hopeless ds p) (hb : s.isPublished p.base = true)
      (ha : p.apply s.domains = .ok d) (he : d.errors = []) (hp : s.domains.get? p.tag = some d) :
    Fate ds s p []
  | invalid {d : Domain} (hh : ¬ Hopeless ds p) (hb : s.isPublished p.base = true)
      (ha : p.apply s.domains = .ok d) (he : d.errors ≠ []) (hp : s.domains.get? p.tag = none) :
    Fate ds s p (d.errors.map Diagnostic.validation)
  | refused {e : PermutationError} (hh : ¬ Hopeless ds p) (hb : s.isPublished p.base = true)
      (ha : p.apply s.domains = .error (.illegal e)) (hp : s.domains.get? p.tag = none) :
    Fate ds s p [.permutation e]
  | unreached (hh : ¬ Hopeless ds p) (hb : s.isPublished p.base = false)
      (hp : s.domains.get? p.tag = none) : Fate ds s p []
  | hopeless (hh : Hopeless ds p) (hb : s.isPublished p.base = false)
      (hp : s.domains.get? p.tag = none) : Fate ds s p [.permutation p.missingBase]

theorem Reachable.fate (hn : (tags ds).Nodup) (h : Reachable ds ⟨.answering [], s⟩)
    (hp : permutation p ∈ ds) : Fate ds s p (s.reports (permutation p)) := by
  obtain ⟨o, hr, ho⟩ := h.exists_record hp
  have hm : ⟨permutation p, o⟩ ∈ s.plainRecords := mem_plainRecords.mpr ⟨hr, ho, rfl⟩
  have hrep : s.reports (permutation p) = o.diagnostics := h.reports_eq hn hm
  have hh : o = .unfounded p.missingBase ↔ Hopeless ds p := h.unfounded_iff hn hr ho
  have hrej : o.rejects = true → s.domains.get? p.tag = none := fun hrej =>
    isPublished_eq_false_iff.mp (h.isPublished_eq_false hn
      ((h.recorded.rejected _).mpr ⟨_, hr, hrej, rfl⟩))
  rw [hrep]
  cases h.explains hr with
  | deferred => exact absurd rfl ho
  | derived hb ha hv =>
    have hne : ¬ Hopeless ds p := mt hh.mpr nofun
    rw [← Permutation.apply_of_get? hb] at ha
    cases hv with
    | published he hd =>
      rw [Permutation.tag_of_apply ha] at hd
      exact .published hne (isPublished_of_get? hb) ha he hd
    | duplicate => exact absurd rfl (h.verdict?_ne_duplicate hn hm)
    | invalid he => exact .invalid hne (isPublished_of_get? hb) ha he (hrej rfl)
  | refused hb he =>
    rw [← Permutation.apply_of_get? hb] at he
    exact .refused (mt hh.mpr nofun) (isPublished_of_get? hb) he (hrej rfl)
  | skipped hb => exact .unreached (mt hh.mpr nofun) (h.isPublished_eq_false hn hb) (hrej rfl)
  | unfounded hb => exact .hopeless (hh.mp rfl) (isPublished_eq_false_iff.mpr hb) (hrej rfl)
  | stranded hb =>
    exact .unreached (mt hh.mpr nofun) (isPublished_eq_false_iff.mpr hb) (hrej rfl)

namespace Fate

theorem get?_eq_some_iff (h : Fate ds s p ms) :
    s.domains.get? p.tag = some d ↔
      s.isPublished p.base = true ∧ p.apply s.domains = .ok d ∧ d.errors = [] := by
  cases h with
  | published _ hb ha he hp =>
    rw [hp, ha]
    constructor
    · rintro ⟨⟩; exact ⟨hb, rfl, he⟩
    · rintro ⟨-, ⟨⟩, -⟩; rfl
  | invalid _ hb ha he hp =>
    rw [hp, ha]
    exact ⟨nofun, fun ⟨_, e, he'⟩ => absurd (Except.ok.inj e ▸ he') he⟩
  | refused _ hb ha hp => rw [hp, ha]; exact ⟨nofun, nofun⟩
  | unreached _ hb hp => rw [hp, hb]; exact ⟨nofun, nofun⟩
  | hopeless _ hb hp => rw [hp, hb]; exact ⟨nofun, nofun⟩

/-- A permutation that fails on a published base has its own mistakes reported. -/
theorem of_base_published (h : Fate ds s p ms) (hp : s.isPublished p.tag = false)
    (hb : s.isPublished p.base = true) :
    (∃ e, p.apply s.domains = .error (.illegal e) ∧ ms = [.permutation e]) ∨
      ∃ d, p.apply s.domains = .ok d ∧ d.errors ≠ [] ∧
        ms = d.errors.map Diagnostic.validation := by
  cases h with
  | published _ _ _ _ hp' => rw [isPublished_of_get? hp'] at hp; cases hp
  | invalid _ _ ha he => exact Or.inr ⟨_, ha, he, rfl⟩
  | refused _ _ ha => exact Or.inl ⟨_, ha, rfl⟩
  | unreached _ hb' => rw [hb] at hb'; cases hb'
  | hopeless _ hb' => rw [hb] at hb'; cases hb'

theorem eq_nil_of_not_hopeless (h : Fate ds s p ms) (hb : s.isPublished p.base = false)
    (hh : ¬ Hopeless ds p) : ms = [] := by
  cases h with
  | published | unreached => rfl
  | invalid _ hb' => rw [hb] at hb'; cases hb'
  | refused _ hb' => rw [hb] at hb'; cases hb'
  | hopeless hh' => exact absurd hh' hh

theorem eq_nil_of_published (h : Fate ds s p ms) (hp : s.isPublished p.tag = true) : ms = [] := by
  cases h with
  | published | unreached => rfl
  | invalid _ _ _ _ hp' => rw [isPublished_eq_false_iff.mpr hp'] at hp; cases hp
  | refused _ _ _ hp' => rw [isPublished_eq_false_iff.mpr hp'] at hp; cases hp
  | hopeless _ _ hp' => rw [isPublished_eq_false_iff.mpr hp'] at hp; cases hp

theorem of_hopeless (h : Fate ds s p ms) (hh : Hopeless ds p) :
    s.isPublished p.tag = false ∧ ms = [.permutation p.missingBase] := by
  cases h with
  | hopeless _ _ hp => exact ⟨isPublished_eq_false_iff.mpr hp, rfl⟩
  | published hn | invalid hn | refused hn | unreached hn => exact absurd hh hn

end Fate

/-- **The meaning of a list of distinct tags.** A plain domain is published if it is valid, and its
mistakes are reported otherwise. A permutation is published exactly if its base is and its result,
which is then the published domain, is valid. One that is not published has its own mistakes
reported if its base is published; if the base is only declared, nothing is reported, except that
a permutation without a declared base or on a circle is a mistake. Nothing else is reported, but
for the requests. -/
theorem resolution_of_distinct_tags (ds : List Declaration) (hn : (tags ds).Nodup) :
    ∃ s, ofDeclarations ds = .ok s ∧
      (∀ d, domain d ∈ ds →
        s.domains.get? d.tag = (if d.errors = [] then some d else none) ∧
          s.reports (domain d) = d.errors.map Diagnostic.validation) ∧
      (∀ p, permutation p ∈ ds →
        (∀ d, s.domains.get? p.tag = some d ↔
          s.isPublished p.base = true ∧ p.apply s.domains = .ok d ∧ d.errors = []) ∧
        (s.isPublished p.tag = false → s.isPublished p.base = true →
          (∃ e, p.apply s.domains = .error (.illegal e) ∧
            s.reports (permutation p) = [.permutation e]) ∨
          ∃ d, p.apply s.domains = .ok d ∧ d.errors ≠ [] ∧
            s.reports (permutation p) = d.errors.map Diagnostic.validation) ∧
        (p.base ∈ tags ds → s.isPublished p.base = false → ¬ OnCircle ds p.tag →
          s.reports (permutation p) = []) ∧
        (p.base ∉ tags ds ∨ OnCircle ds p.tag → s.isPublished p.tag = false ∧
          s.reports (permutation p) = [.permutation p.missingBase]) ∧
        (s.isPublished p.tag = true → s.reports (permutation p) = [])) ∧
      s.diagnostics.Perm ((definitions ds).flatMap s.reports ++ s.requestReports) := by
  obtain ⟨s, hs, h⟩ := exists_reachable ds
  refine ⟨s, hs, fun d hd => h.get?_domain hn hd, fun p hp => ?_, h.diagnostics_perm hn⟩
  have hf : Fate ds s p (s.reports (permutation p)) := h.fate hn hp
  refine ⟨fun d => hf.get?_eq_some_iff, hf.of_base_published, fun ht hb hc => ?_, hf.of_hopeless,
    hf.eq_nil_of_published⟩
  exact hf.eq_nil_of_not_hopeless hb (not_or.mpr ⟨not_not_intro ht, hc⟩)

/-- Two permutations of each other are mistakes, and one that hangs off them is not. -/
theorem resolution_of_circle :
    let ds := [permutation { tag := "a", base := "b" }, permutation { tag := "b", base := "a" },
      permutation { tag := "c", base := "a" }]
    (tags ds).Nodup ∧ ∃ s, ofDeclarations ds = .ok s ∧
      s.reports (permutation { tag := "a", base := "b" }) =
        [.permutation ⟨.nonexistentBase "a" "b", Origin.blank⟩] ∧
      s.reports (permutation { tag := "c", base := "a" }) = [] := by
  intro ds
  have hn : (tags ds).Nodup := by decide
  have ha : OnCircle ds "a" :=
    .head ⟨_, List.mem_cons_self, rfl, rfl⟩
      (.single ⟨_, List.mem_cons_of_mem _ List.mem_cons_self, rfl, rfl⟩)
  have hc : ¬ OnCircle ds "c" := by
    intro h
    obtain ⟨b, -, q, hq, -, e⟩ := TransGen.tail'_iff.mp h
    simp only [ds, List.mem_cons, List.not_mem_nil, permutation.injEq, or_false] at hq
    rcases hq with rfl | rfl | rfl <;> exact absurd e (by decide)
  obtain ⟨s, hs, -, hp, -⟩ := resolution_of_distinct_tags ds hn
  obtain ⟨-, -, -, hopeless, -⟩ := hp { tag := "a", base := "b" } (by simp [ds])
  obtain ⟨-, -, unreached, -⟩ := hp { tag := "c", base := "a" } (by simp [ds])
  exact ⟨hn, s, hs, (hopeless (Or.inr ha)).2,
    unreached (by decide) (hopeless (Or.inr ha)).1 hc⟩

end Resolution

end VersionedTypes
