import Mathlib.Data.List.Dedup
import VersionedTypes.Proofs.Resolution.Completeness
import VersionedTypes.Proofs.Resolution.Meaning

/-!
# Answers to requests

Requests come last, and by then the fate of exactly the declared tags is known. So a request is
answered when both its ends are published; of any other request each end that no declaration has is
reported once, and an end that is declared but not published is not.

* `exists_settled`: the state in front of the requests, from which they are answered one by one;
* `Reachable.isSettled_iff_mem_tags`: in this state the settled tags are the declared ones;
* `Declaration.undeclaredEnds`: the mistakes in a request, as the declarations tell them;
* `exists_foldl_answer_records`: what is recorded of the requests, with
  `Reachable.requestReports_eq`, the mistakes in them;
* `Domain.errors_ne_undefinedDomain`: no domain reports what a request reports;
* **`requests_answered_exactly`**: the transforms and the mistakes of all requests.
-/

namespace VersionedTypes

/-! ## Mistakes in requests, and in domains -/

/-- The ends of a request that no declaration of the list has, each once. -/
def Declaration.undeclaredEnds (ds : List Declaration) (r : TransformRequest) : List Diagnostic :=
  ((Resolution.endpoints r).filter fun tag => tag ∉ tags ds).map fun tag =>
    .validation ⟨.undefinedDomain r.name tag, r.origin⟩

theorem Resolution.endpoints_eq_dedup (r : TransformRequest) :
    endpoints r = [r.source, r.destination].dedup := by
  rw [endpoints]
  split
  · next h =>
    rw [h, List.dedup_cons_of_mem (List.mem_singleton_self _), (List.nodup_singleton _).dedup]
  · next h =>
    have hne : r.source ∉ [r.destination] := mt List.mem_singleton.mp (Ne.symm h)
    rw [List.dedup_cons_of_notMem hne, (List.nodup_singleton _).dedup]

namespace Domain

variable {d : Domain} {e : ValidationError} {name tag : String}

theorem fieldErrors_ne_undefinedDomain {product : String} {seen : List String} {fs : List Field}
    (he : e ∈ d.fieldErrors product seen fs) : e.problem ≠ .undefinedDomain name tag := by
  induction fs generalizing seen with
  | nil => cases he
  | cons f fs ih =>
    rw [fieldErrors, List.mem_append, List.mem_append] at he
    rcases he with (he | he) | he
    · split at he
      · simp [List.mem_singleton.mp he]
      · cases he
    · rw [referenceErrors] at he
      split at he
      · cases he
      · simp [List.mem_singleton.mp he]
    · exact ih he

theorem variantErrors_ne_undefinedDomain {sum : String} {seen : List String}
    {vs : List ProductType} (he : e ∈ d.variantErrors sum seen vs) :
    e.problem ≠ .undefinedDomain name tag := by
  induction vs generalizing seen with
  | nil => cases he
  | cons v vs ih =>
    rw [variantErrors, List.mem_append, List.mem_append] at he
    rcases he with (he | he) | he
    · split at he
      · simp [List.mem_singleton.mp he]
      · cases he
    · exact fieldErrors_ne_undefinedDomain he
    · exact ih he

/-- **No mistake in a domain** is one of those that a request reports. -/
theorem errors_ne_undefinedDomain (he : e ∈ d.errors) :
    e.problem ≠ .undefinedDomain name tag := by
  rw [errors, List.mem_append, List.mem_flatMap] at he
  rcases he with he | ⟨t, -, he⟩
  · obtain ⟨t, -, rfl⟩ := List.mem_map.mp he
    simp
  · cases t with
    | product p => exact fieldErrors_ne_undefinedDomain he
    | sum s => exact variantErrors_ne_undefinedDomain he

end Domain

namespace Resolution

open Declaration

variable {ds : List Declaration} {k : Config} {s : Resolution} {c : Declaration} {o : Outcome}
  {r : TransformRequest} {m : Diagnostic} {tag : String}

/-! ## The state in front of the requests -/

/-- Every list comes to a state in which only its requests are left, and they are answered one by
one. -/
theorem exists_settled (ds : List Declaration) :
    ∃ s, Reachable ds ⟨.answering (requests ds), s⟩ ∧
      ofDeclarations ds = .ok ((requests ds).foldl answer s) := by
  obtain ⟨s, hs, hl⟩ := leads_settle ds _ (permutations ds)
    (sound_foldl_declare ds sound_empty)
  refine ⟨s, ((leads_reading ds {}).tail (.start _)).trans hl, ?_⟩
  rw [ofDeclarations, hs]
  rfl

theorem Reachable.answered (h : Reachable ds ⟨.answering (requests ds), s⟩) :
    Reachable ds ⟨.answering [], (requests ds).foldl answer s⟩ :=
  Relation.ReflTransGen.trans h (leads_answering _ s)

/-- In this state all plain domains and permutations are decided, and nothing else. -/
theorem Reachable.perm_definitions (h : Reachable ds ⟨.answering (requests ds), s⟩) :
    s.decided.Perm (definitions ds) :=
  (List.perm_append_right_iff _).mp ((show (s.decided ++ _).Perm ds from h.accounted).trans
    (perm_sorted ds).symm)

/-- **The settled tags are the declared ones** once all definitions are decided. -/
theorem Reachable.isSettled_iff_mem_tags (h : Reachable ds k)
    (hk : ∀ c ∈ definitions ds, c ∈ k.state.decided) :
    k.state.isSettled tag = true ↔ tag ∈ tags ds := by
  refine ⟨h.mem_tags_of_isSettled, fun ht => ?_⟩
  obtain ⟨c, hc, rfl⟩ := mem_tags.mp ht
  exact h.isSettled_of_decided (hk c hc) (mem_definitions.mp hc).2

theorem Reachable.isSettled_iff_declared (h : Reachable ds ⟨.answering (requests ds), s⟩)
    (tag : String) : s.isSettled tag = true ↔ tag ∈ tags ds :=
  h.isSettled_iff_mem_tags fun _ hc => h.perm_definitions.mem_iff.mpr hc

theorem Reachable.eq_deferred {r : Record} (h : Reachable ds ⟨.answering (requests ds), s⟩)
    (hr : r ∈ s.records) (hq : r.declaration.request?.isSome = true) : r.outcome = .deferred := by
  by_contra ho
  have hd : r.declaration ∈ s.decided := mem_decided.mpr ⟨_, hr, ho⟩
  rw [(mem_definitions.mp (h.perm_definitions.mem_iff.mp hd)).2] at hq
  cases hq

theorem Reachable.diagnostics_eq (h : Reachable ds ⟨.answering (requests ds), s⟩) :
    s.diagnostics = s.plainRecords.flatMap fun r => r.outcome.diagnostics := by
  rw [plainRecords, flatMap_filter_of_nil, flatMap_filter_of_nil]
  · rfl
  · intro r _ hr
    obtain ho : r.outcome = .deferred := by simpa using hr
    rw [ho]
    rfl
  · intro r hr hq
    rw [h.eq_deferred (List.mem_of_mem_filter hr) (by simpa using hq)]
    rfl

/-! ## What the requests add -/

theorem answer_domains (s : Resolution) (r : TransformRequest) :
    (s.answer r).domains = s.domains := by
  obtain ⟨o, ho, he⟩ := answer_event s r
  exact he.domains_of_none (Outcome.published?_of_stage (by omega))

theorem isSettled_answer (s : Resolution) (r : TransformRequest) :
    (s.answer r).isSettled tag = s.isSettled tag := by
  obtain ⟨o, ho, he⟩ := answer_event s r
  have hrejected : (s.answer r).rejected = s.rejected := by
    rw [he.rejected, Outcome.rejects_of_stage (by omega)]
    rfl
  simp only [isSettled, isPublished, isRejected, answer_domains, hrejected]

theorem exists_answer_record (hs : ∀ tag, s.isSettled tag = true ↔ tag ∈ tags ds) :
    ∃ o, (s.answer r).records = s.records ++ [⟨transform r, o⟩] ∧
      o.diagnostics = undeclaredEnds ds r := by
  obtain ⟨o, ho, he⟩ := answer_event s r
  refine ⟨o, he.records, ?_⟩
  generalize s.answer r = s' at he
  cases he with
  | deferred => cases ho
  | answered ha hb =>
    have hends : (endpoints r).filter (fun tag => tag ∉ tags ds) = [] := by
      rw [List.filter_eq_nil_iff]
      intro tag ht
      have hset : s.isSettled tag = true := by
        rcases mem_endpoints.mp ht with rfl | rfl
        · exact isSettled_iff.mpr (Or.inl (isPublished_of_get? ha))
        · exact isSettled_iff.mpr (Or.inl (isPublished_of_get? hb))
      simpa using (hs tag).mp hset
    rw [undeclaredEnds, hends]
    rfl
  | undefined _ herrors =>
    have hfilter : (endpoints r).filter (fun tag => !s.isSettled tag) =
        (endpoints r).filter fun tag => tag ∉ tags ds := by
      refine List.filter_congr fun tag _ => ?_
      rw [Bool.eq_iff_iff, Bool.not_eq_true', ← Bool.not_eq_true, hs, decide_eq_true_eq]
    rw [Outcome.diagnostics, herrors, hfilter, List.map_map]
    rfl

theorem foldl_answer_domains (rs : List TransformRequest) (s : Resolution) :
    (rs.foldl answer s).domains = s.domains := by
  induction rs generalizing s with
  | nil => rfl
  | cons r rs ih => rw [List.foldl_cons, ih, answer_domains]

theorem exists_foldl_answer_records (hs : ∀ tag, s.isSettled tag = true ↔ tag ∈ tags ds)
    (rs : List TransformRequest) :
    ∃ more, (rs.foldl answer s).records = s.records ++ more ∧
      more.map Record.declaration = rs.map transform ∧
      more.flatMap (fun r => r.outcome.diagnostics) = rs.flatMap (undeclaredEnds ds) := by
  induction rs generalizing s with
  | nil => exact ⟨[], (List.append_nil _).symm, rfl, rfl⟩
  | cons r rs ih =>
    obtain ⟨o, hr, ho⟩ := exists_answer_record hs
    obtain ⟨more, hm, hd, hmistakes⟩ := ih fun tag => by rw [isSettled_answer, hs]
    refine ⟨⟨transform r, o⟩ :: more, ?_, ?_, ?_⟩
    · rw [List.foldl_cons, hm, hr, List.append_assoc]
      rfl
    · rw [List.map_cons, hd, List.map_cons]
    · rw [List.flatMap_cons, hmistakes, ho, List.flatMap_cons]

theorem foldl_answer_diagnostics (hs : ∀ tag, s.isSettled tag = true ↔ tag ∈ tags ds)
    (rs : List TransformRequest) :
    (rs.foldl answer s).diagnostics = s.diagnostics ++ rs.flatMap (undeclaredEnds ds) := by
  obtain ⟨more, hr, -, hmistakes⟩ := exists_foldl_answer_records hs rs
  rw [diagnostics, hr, List.flatMap_append, hmistakes]
  rfl

/-- **The mistakes in all requests**, in order. -/
theorem Reachable.requestReports_eq (h : Reachable ds ⟨.answering [], s⟩) :
    s.requestReports = (requests ds).flatMap (undeclaredEnds ds) := by
  obtain ⟨s₀, h₀, -⟩ := exists_settled ds
  obtain rfl : s = (requests ds).foldl answer s₀ := by
    cases eq_of_leads_answered (h.leads h₀.answered)
    rfl
  obtain ⟨more, hr, hd, hmistakes⟩ :=
    exists_foldl_answer_records h₀.isSettled_iff_declared (requests ds)
  have hearlier : (s₀.records.filter fun r => r.declaration.request?.isSome).flatMap
      (fun r => r.outcome.diagnostics) = [] := by
    rw [List.flatMap_eq_nil_iff]
    intro r hr
    obtain ⟨hr, hq⟩ := List.mem_filter.mp hr
    rw [h₀.eq_deferred hr hq]
    rfl
  have hmore : more.filter (fun r => r.declaration.request?.isSome) = more := by
    rw [List.filter_eq_self]
    intro r hr
    obtain ⟨q, -, e⟩ := List.mem_map.mp (hd ▸ List.mem_map_of_mem hr)
    rw [← e]
    rfl
  rw [requestReports, hr, List.filter_append, List.flatMap_append, hearlier, hmore, hmistakes]
  rfl

/-! ## Exact answers -/

theorem isSome_answer?_iff :
    (r.answer? s.domains).isSome = (s.isPublished r.source && s.isPublished r.destination) := by
  unfold TransformRequest.answer? isPublished
  rw [← OrderedMap.isSome_get?, ← OrderedMap.isSome_get?]
  cases s.domains.get? r.source <;> cases s.domains.get? r.destination <;> rfl

theorem filterMap_eq_filterMap_filter {α β : Type} {f : α → Option β} {xs : List α} :
    xs.filterMap f = (xs.filter fun x => (f x).isSome).filterMap f := by
  rw [List.filterMap_filter]
  refine List.filterMap_congr fun x _ => ?_
  cases f x <;> rfl

theorem Explains.ne_undefinedDomain {name : String} {origin : Origin} (h : s.Explains c o)
    (hc : c.request? = none) (hm : m ∈ o.diagnostics) :
    m ≠ .validation ⟨.undefinedDomain name tag, origin⟩ := by
  have hverdict : ∀ d v, s.Upholds d v → m ∈ v.errors.map Diagnostic.validation →
      m ≠ .validation ⟨.undefinedDomain name tag, origin⟩ := by
    rintro d v hv hm rfl
    obtain ⟨e, he, hproblem⟩ := List.mem_map.mp hm
    cases hproblem
    cases hv with
    | published => cases he
    | duplicate => cases List.mem_singleton.mp he
    | invalid => exact Domain.errors_ne_undefinedDomain he rfl
  cases h with
  | declared hv => exact hverdict _ _ hv hm
  | derived _ _ hv => exact hverdict _ _ hv hm
  | refused | unfounded => simp [List.mem_singleton.mp hm]
  | answered | undefined => cases hc
  | deferred | skipped | stranded => cases hm

/-- **Requests are answered exactly.** The transforms are, in the order of the requests, one for
each request of which both ends are published, with the delta between these. Behind the mistakes of
plain domains and permutations, none of which speaks of a request, the mistakes are those of the
other requests, in order: one for each distinct end that no declaration has. -/
theorem requests_answered_exactly (ds : List Declaration) :
    ∃ s, ofDeclarations ds = .ok s ∧
      List.Forall₂ (fun (r : TransformRequest) t =>
          ∃ a b, s.domains.get? r.source = some a ∧ s.domains.get? r.destination = some b ∧
            t = { name := r.name, source := r.source, destination := r.destination,
                  delta := a.delta b, origin := r.origin })
        ((requests ds).filter fun r => s.isPublished r.source && s.isPublished r.destination)
        s.transforms ∧
      ∃ earlier, s.diagnostics = earlier ++
          ((requests ds).filter fun r =>
              !(s.isPublished r.source && s.isPublished r.destination)).flatMap (fun r =>
            ([r.source, r.destination].dedup.filter fun tag => tag ∉ tags ds).map fun tag =>
              .validation ⟨.undefinedDomain r.name tag, r.origin⟩) ∧
        ∀ m ∈ earlier, ∀ name tag origin,
          m ≠ .validation ⟨.undefinedDomain name tag, origin⟩ := by
  obtain ⟨s, h, hs⟩ := exists_settled ds
  have hsettled : ∀ tag, s.isSettled tag = true ↔ tag ∈ tags ds := h.isSettled_iff_declared
  have hpublished : ∀ tag, ((requests ds).foldl answer s).isPublished tag = s.isPublished tag :=
    fun tag => by rw [isPublished, foldl_answer_domains]; rfl
  refine ⟨_, hs, ?_, s.diagnostics, ?_, fun m hm name tag origin => ?_⟩
  · rw [h.answered.transforms_eq, filterMap_eq_filterMap_filter]
    simp only [isSome_answer?_iff]
    refine (forall₂_filterMap fun r hr => ?_).imp fun r t ht => ?_
    · rw [isSome_answer?_iff]
      exact (List.mem_filter.mp hr).2
    · obtain ⟨a, b, ha, hb, rfl⟩ := answer?_eq_some_iff.mp ht
      exact ⟨a, b, ha, hb, rfl⟩
  · rw [foldl_answer_diagnostics hsettled, flatMap_filter_of_nil fun r _ hr => ?_]
    · exact congrArg (s.diagnostics ++ ·)
        (List.flatMap_congr fun r _ => by rw [undeclaredEnds, endpoints_eq_dedup])
    · -- both ends are published, hence declared
      rw [Bool.not_eq_false', Bool.and_eq_true, hpublished, hpublished] at hr
      have hdeclared : ∀ tag, s.isPublished tag = true → tag ∈ tags ds := fun tag ht =>
        (hsettled tag).mp (isSettled_iff.mpr (Or.inl ht))
      rw [List.map_eq_nil_iff, List.filter_eq_nil_iff]
      intro tag ht
      rw [List.mem_dedup, List.mem_pair] at ht
      rcases ht with rfl | rfl
      · simpa using hdeclared _ hr.1
      · simpa using hdeclared _ hr.2
  · rw [h.diagnostics_eq, List.mem_flatMap] at hm
    obtain ⟨r, hr, hm⟩ := hm
    obtain ⟨hr, -, hc⟩ := mem_plainRecords.mp hr
    exact (h.explains hr).ne_undefinedDomain hc hm

end Resolution

end VersionedTypes
