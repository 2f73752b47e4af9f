import VersionedTypes.Proofs.Resolution.Circles
import VersionedTypes.Proofs.Resolution.Completeness
import VersionedTypes.Proofs.Resolution.Shadowing

/-!
# What is left out has a cause

A declaration that takes no effect and reports nothing depends on one that does report: following
the links of permutations from what it depends on, one comes to a tag of which a declaration was
reported. A skipped permutation owes this to the rejection of its base, which came earlier; one that
waits in vain owes it to an unfounded one that waits as well.

* `Declaration.dependencies`: the tags that a declaration depends on;
* `strandedRecord`, `Config.Stranded`, `Reachable.stranded`: what is recorded of the permutations
  that wait in vain;
* `Reported`, `Blamed`: a declaration of the tag is reported, or one that the links lead to;
* `Reachable.blamed_of_rounds`: every tag that is rejected in the rounds is blamed;
* `Reachable.blamed_base`, `Reachable.blamed_of_isRejected`: at the end, every rejected tag;
* **`suppression_has_cause`**: whatever is left out has a cause that is reported.
-/

namespace VersionedTypes

/-- The tags that a declaration depends on. -/
def Declaration.dependencies : Declaration → List String
  | domain _ => []
  | permutation p => [p.base]
  | transform r => [r.source, r.destination]

/-- The outcome of the declaration is known: it published no domain and added no transform, and it
reported nothing. -/
structure Record.Silent (r : Record) : Prop where
  decided : r.outcome ≠ .deferred
  publication : r.publication? = none
  transform : r.transform? = none
  diagnostics : r.outcome.diagnostics = []

namespace Resolution

open Declaration Relation

variable {ds : List Declaration} {k k' : Config} {s s' : Resolution} {c : Declaration} {o : Outcome}
  {p : Permutation} {r : Record} {tag a b : String}

/-! ## The records of the permutations that wait in vain -/

/-- What is recorded of a permutation that waits in vain. -/
def strandedRecord (l : OrderedMap String) (p : Permutation) : Record :=
  ⟨permutation p, if isUnfounded l p then .unfounded p.missingBase else .stranded⟩

/-- The permutations that waited when none was ready are recorded one by one, and after them only
requests. -/
def Config.Stranded (ds : List Declaration) : Config → Prop
  | ⟨.stranding l rest, s⟩ => ∃ ws s₀ done, Reachable ds ⟨.applying [] ws, s₀⟩ ∧
    l = links ws ∧ done ++ rest = ws ∧ s.records = s₀.records ++ done.map (strandedRecord l)
  | ⟨.answering _, s⟩ => ∃ ws s₀ more, Reachable ds ⟨.applying [] ws, s₀⟩ ∧
    s.records = s₀.records ++ ws.map (strandedRecord (links ws)) ++ more ∧
    ∀ r ∈ more, r.declaration.request? ≠ none
  | _ => True

theorem strandOne_records (l : OrderedMap String) (s : Resolution) (p : Permutation) :
    (strandOne l s p).records = s.records ++ [strandedRecord l p] := rfl

theorem Step.stranded (hr : Reachable ds k) (hk : k.Stranded ds) (h : Step ds k k') :
    k'.Stranded ds := by
  cases h with
  | @stuck ws s hw => exact ⟨ws, s, [], hr, rfl, rfl, (List.append_nil _).symm⟩
  | strand l p ps s =>
    obtain ⟨ws, s₀, done, h₀, hl, hd, hs⟩ := hk
    refine ⟨ws, s₀, done ++ [p], h₀, hl, by rw [← hd]; simp, ?_⟩
    rw [strandOne_records, hs, List.append_assoc, List.map_append]
    rfl
  | finish l s =>
    obtain ⟨ws, s₀, done, h₀, rfl, hd, hs⟩ := hk
    rw [List.append_nil] at hd
    subst hd
    have hdone : s.records = s₀.records ++ done.map (strandedRecord (links done)) ++ [] := by
      rw [hs, List.append_nil]
    exact ⟨done, s₀, [], h₀, hdone, fun r hr => absurd hr List.not_mem_nil⟩
  | answer r rs s =>
    obtain ⟨ws, s₀, more, h₀, hs, hm⟩ := hk
    obtain ⟨o, -, he⟩ := answer_event s r
    refine ⟨ws, s₀, more ++ [⟨transform r, o⟩], h₀, ?_, ?_⟩
    · rw [he.records, hs, List.append_assoc]
    · exact List.forall_mem_append.mpr
        ⟨hm, List.forall_mem_singleton.mpr (Option.some_ne_none r)⟩
  | _ => trivial

theorem Reachable.stranded (h : Reachable ds k) : k.Stranded ds := by
  induction h with
  | refl => trivial
  | tail hr hstep ih => exact hstep.stranded hr ih

/-! ## Blame -/

/-- A plain domain or a permutation of this tag reported a mistake. -/
def Reported (s : Resolution) (tag : String) : Prop :=
  ∃ r ∈ s.records, r.declaration.request? = none ∧ r.declaration.name = tag ∧
    r.outcome.diagnostics ≠ []

/-- The links lead from `tag` to a tag that was reported. -/
def Blamed (ds : List Declaration) (s : Resolution) (tag : String) : Prop :=
  ∃ t, ReflTransGen (LinkedTo ds) tag t ∧ s.Reported t

theorem Blamed.mono (h : Blamed ds s tag) (hg : Grows s s') : Blamed ds s' tag := by
  obtain ⟨t, ht, r, hr, hc⟩ := h
  exact ⟨t, ht, r, hg.records.subset hr, hc⟩

theorem Blamed.head (h : Blamed ds s b) (hab : LinkedTo ds a b) : Blamed ds s a := by
  obtain ⟨t, ht, hr⟩ := h
  exact ⟨t, .head hab ht, hr⟩

theorem Event.stage_eq (h : Event k.state c o k'.state) (hk : Reachable ds k)
    (hstep : Step ds k k') : o.stage = k.stage := by
  rcases Reachable.event hk hstep with e | ⟨c', o', ho, he⟩
  · have := h.records
    rw [e] at this
    simp at this
  · have := he.records.symm.trans h.records
    obtain ⟨-, e⟩ : c' = c ∧ o' = o := by simpa using this
    exact e ▸ ho

theorem Event.mem_records (h : Event s c o s') : ⟨c, o⟩ ∈ s'.records := by
  rw [h.records]
  exact List.mem_concat_self

/-- An event that rejects a tag reports a mistake, unless it leaves a permutation out. -/
theorem Event.reports_or_left_out (h : Event s c o s') (ho : o.rejects = true) :
    c.request? = none ∧ (o.diagnostics ≠ [] ∨
      ∃ p, c = permutation p ∧ (o = .skipped ∧ s.isRejected p.base = true ∨ o = .stranded)) := by
  have hv : ∀ d, (s.verdict d).rejects = true →
      (s.verdict d).errors.map Diagnostic.validation ≠ [] := by
    intro d hd
    rcases verdict_cases s d with ⟨-, hv⟩ | ⟨-, -, hv⟩ | ⟨-, he, hv⟩ <;> rw [hv] at hd ⊢
    · cases hd
    · cases hd
    · exact mt List.map_eq_nil_iff.mp he
  cases h with
  | declared d => exact ⟨rfl, Or.inl (hv d ho)⟩
  | derived => exact ⟨rfl, Or.inl (hv _ ho)⟩
  | refused | unfounded => exact ⟨rfl, Or.inl (List.cons_ne_nil _ _)⟩
  | skipped hr => exact ⟨rfl, Or.inr ⟨_, rfl, Or.inl ⟨rfl, hr⟩⟩⟩
  | stranded => exact ⟨rfl, Or.inr ⟨_, rfl, Or.inr rfl⟩⟩
  | deferred | answered | undefined => cases ho

/-- **Every tag that is rejected in the rounds is blamed.** A permutation that is skipped has a base
that was rejected before. -/
theorem Reachable.blamed_of_rounds (h : Reachable ds k) (hk : k.stage ≤ 1)
    (ht : k.state.isRejected tag = true) : Blamed ds k.state tag := by
  induction h generalizing tag with
  | refl => cases ht
  | @tail k k' hr hstep ih =>
    have ih : ∀ tag, k.state.isRejected tag = true → Blamed ds k.state tag :=
      fun _ => ih (hstep.stage_le.trans hk)
    rcases Reachable.event hr hstep with e | ⟨c, o, ho, he⟩
    · exact e ▸ ih _ (e ▸ ht)
    rcases he.isRejected_iff.mp ht with ht | ⟨hrej, rfl⟩
    · exact (ih _ ht).mono he.grows
    obtain ⟨hc, hd | ⟨p, rfl, ⟨rfl, hb⟩ | rfl⟩⟩ := he.reports_or_left_out hrej
    · exact ⟨c.name, .refl, _, he.mem_records, hc, rfl, hd⟩
    · have hp : permutation p ∈ ds := Reachable.mem_of_decided (hr.tail hstep)
        (mem_decided.mpr ⟨_, he.mem_records, nofun⟩)
      exact ((ih _ hb).mono he.grows).head ⟨p, hp, rfl, rfl⟩
    · have : 2 ≤ 1 := (ho.symm ▸ hstep.stage_le).trans hk
      omega

/-- The links lead from every permutation that waits in vain to an unfounded one, which is
reported. -/
theorem Reachable.blamed_of_waiting {ws : List Permutation} {s₀ : Resolution}
    (h₀ : Reachable ds ⟨.applying [] ws, s₀⟩)
    (hs : ∀ q ∈ ws, strandedRecord (links ws) q ∈ s.records) (hp : p ∈ ws) :
    Blamed ds s p.tag := by
  obtain ⟨q, hq, hu, hpq⟩ := exists_isUnfounded_of_mem hp
  refine ⟨q.tag, ReflTransGen.mono (fun a b hab => ?_) _ _ hpq, _, hs q hq, rfl, rfl, ?_⟩
  · obtain ⟨p, hp, ha, hb⟩ := exists_of_next_links hab
    exact ⟨p, h₀.declared_of_applying hp, ha, hb⟩
  · rw [strandedRecord, if_pos hu]
    exact List.cons_ne_nil _ _

theorem Reachable.blamed_base (h : Reachable ds ⟨.answering [], s⟩)
    (hr : ⟨permutation p, o⟩ ∈ s.records) (ho : o = .skipped ∨ o = .stranded) :
    Blamed ds s p.base := by
  rcases ho with rfl | rfl
  · obtain ⟨k, k', hk, hstep, he, hl⟩ := h.exists_origin hr
    have hstage : 1 = k.stage := he.stage_eq hk hstep
    have hb := hk.blamed_of_rounds (by omega) he.isRejected_of_skipped
    exact hb.mono (hk.grows (hk.leads h))
  · obtain ⟨ws, s₀, more, h₀, hs, hm⟩ := h.stranded
    have hws : ∀ q ∈ ws, strandedRecord (links ws) q ∈ s.records := by
      intro q hq
      rw [hs]
      exact List.mem_append_left _ (List.mem_append_right _ (List.mem_map_of_mem hq))
    rw [hs, List.mem_append, List.mem_append] at hr
    rcases hr with (hr | hr) | hr
    · have : 2 ≤ 1 := h₀.stage_le hr
      omega
    · obtain ⟨q, hq, e⟩ := List.mem_map.mp hr
      obtain ⟨rfl, hu⟩ : q = p ∧ ¬ isUnfounded (links ws) q = true := by
        rw [strandedRecord] at e
        split at e
        · cases e
        · next hu => cases e; exact ⟨rfl, hu⟩
      -- the base of a permutation that is not unfounded is the tag of another that waits
      rw [isUnfounded_iff, not_or] at hu
      obtain ⟨q', hq', e⟩ : ∃ q' ∈ ws, q'.tag = q.base := by simpa using hu.1
      exact e ▸ h₀.blamed_of_waiting hws hq'
    · exact absurd rfl (hm _ hr)

/-- **Every rejected tag is blamed.** -/
theorem Reachable.blamed_of_isRejected (h : Reachable ds ⟨.answering [], s⟩)
    (ht : s.isRejected tag = true) : Blamed ds s tag := by
  obtain ⟨⟨c, o⟩, hr, hrej, rfl⟩ := (h.recorded.rejected tag).mp ht
  obtain ⟨k, k', -, -, he, -⟩ := h.exists_origin hr
  obtain ⟨hc, hd | ⟨p, rfl, ho⟩⟩ := he.reports_or_left_out hrej
  · exact ⟨c.name, .refl, _, hr, hc, rfl, hd⟩
  · have hp : permutation p ∈ ds := h.mem_of_decided (mem_decided.mpr ⟨o, hr, by
      rintro rfl; cases hrej⟩)
    exact (h.blamed_base hr (ho.imp_left And.left)).head ⟨p, hp, rfl, rfl⟩

/-! ## Declarations without effect -/

theorem Upholds.errors_ne_nil {d : Domain} {v : Verdict} (h : s.Upholds d v)
    (hv : v.published? = none) : v.errors ≠ [] := by
  cases h with
  | published => cases hv
  | duplicate => exact List.cons_ne_nil _ _
  | invalid he => exact he

/-- Only permutations that were left out, and requests with an end that is not published, are
silent. -/
theorem Explains.of_silent (h : s.Explains r.declaration r.outcome) (hr : r.Silent) :
    (∃ p, r.declaration = permutation p ∧ (r.outcome = .skipped ∨ r.outcome = .stranded)) ∨
      ∃ q tag, r.declaration = transform q ∧ tag ∈ [q.source, q.destination] ∧
        s.isRejected tag = true := by
  obtain ⟨c, o⟩ := r
  obtain ⟨ho, hp, ht, hd⟩ := hr
  cases h with
  | deferred => exact absurd rfl ho
  | declared hv | derived _ _ hv =>
    exact absurd (List.map_eq_nil_iff.mp hd) (hv.errors_ne_nil (Option.map_eq_none_iff.mp hp))
  | refused | unfounded => cases hd
  | skipped => exact Or.inl ⟨_, rfl, Or.inl rfl⟩
  | stranded => exact Or.inl ⟨_, rfl, Or.inr rfl⟩
  | answered => cases ht
  | @undefined q errors hno he =>
    -- every end is settled, since an end that is not would have been reported
    have hset : ∀ tag ∈ endpoints q, s.isSettled tag = true := by
      rw [Outcome.diagnostics, List.map_eq_nil_iff, he, List.map_eq_nil_iff,
        List.filter_eq_nil_iff] at hd
      simpa using hd
    have hrej : ∀ tag ∈ endpoints q, s.domains.get? tag = none → s.isRejected tag = true := by
      intro tag ht hn
      rw [← isPublished_eq_false_iff] at hn
      exact (isSettled_iff.mp (hset tag ht)).resolve_left (by rw [hn]; exact Bool.false_ne_true)
    refine Or.inr ⟨q, ?_⟩
    cases ha : s.domains.get? q.source with
    | none => exact ⟨_, rfl, by simp, hrej _ (mem_endpoints.mpr (Or.inl rfl)) ha⟩
    | some a =>
      cases hb : s.domains.get? q.destination with
      | none => exact ⟨_, rfl, by simp, hrej _ (mem_endpoints.mpr (Or.inr rfl)) hb⟩
      | some b => rw [answer?_eq_some_iff.mpr ⟨a, b, ha, hb, rfl⟩] at hno; cases hno

/-- **Whatever is left out has a cause.** Every declaration is decided once, and the records of what
was decided make up the published domains, the transforms and the mistakes. If a declaration neither
takes effect nor reports a mistake, then the links of permutations lead from one of the tags that it
depends on to a tag of which a plain domain or a permutation reported a mistake. -/
theorem suppression_has_cause (ds : List Declaration) :
    ∃ s, ofDeclarations ds = .ok s ∧ s.decided.Perm ds ∧
      s.domains.entries = s.records.filterMap Record.publication? ∧
      s.transforms = s.records.filterMap Record.transform? ∧
      s.diagnostics = s.records.flatMap (fun r => r.outcome.diagnostics) ∧
      ∀ r ∈ s.records, r.outcome ≠ .deferred → r.publication? = none → r.transform? = none →
        r.outcome.diagnostics = [] →
          ∃ start ∈ r.declaration.dependencies, ∃ tag, ReflTransGen (LinkedTo ds) start tag ∧
            ∃ c ∈ s.records, c.declaration.request? = none ∧ c.declaration.name = tag ∧
              c.outcome.diagnostics ≠ [] := by
  obtain ⟨s, hs, h⟩ := exists_reachable ds
  have hrec : s.Recorded := h.recorded
  refine ⟨s, hs, h.perm_decided, hrec.entries, hrec.transforms, rfl, fun r hr ho hp ht hd => ?_⟩
  suffices hb : ∃ start ∈ r.declaration.dependencies, Blamed ds s start from hb
  have hsilent := (h.explains hr).of_silent ⟨ho, hp, ht, hd⟩
  obtain ⟨c, o⟩ := r
  obtain ⟨p, rfl, ho⟩ | ⟨q, tag, rfl, htag, hrej⟩ := hsilent
  · exact ⟨p.base, List.mem_singleton_self _, h.blamed_base hr ho⟩
  · exact ⟨tag, htag, h.blamed_of_isRejected hrej⟩

end Resolution

end VersionedTypes
