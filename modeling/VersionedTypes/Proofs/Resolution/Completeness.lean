import VersionedTypes.Proofs.Resolution.Links
import VersionedTypes.Proofs.Resolution.Records

/-!
# Nothing is left out without a mistake

A resolution that finds no mistake has done everything that was asked of it, and one that leaves
something out finds a mistake. A permutation is skipped for a rejected base only after a mistake
that rejected the base, and of the permutations that wait in vain one is always a mistake.

* `Config.Candid`, `Reachable.candid`: without a mistake nothing is rejected;
* `Reachable.transforms_eq`: the transforms, in the order of the requests;
* `Reachable.size_domains_eq_iff`: counting the published domains;
* **`diagnostics_eq_nil_iff_complete`**: no mistakes, if and only if everything took effect.
-/

namespace VersionedTypes

namespace Resolution

open Declaration

variable {ds : List Declaration} {k k' : Config} {s s' : Resolution} {c : Declaration} {o : Outcome}
  {r : Record} {d : Domain} {p : Permutation} {tag : String}

theorem diagnostics_eq_nil_iff :
    s.diagnostics = [] ↔ ∀ r ∈ s.records, r.outcome.diagnostics = [] :=
  List.flatMap_eq_nil_iff

theorem Event.diagnostics (h : Event s c o s') :
    s'.diagnostics = s.diagnostics ++ o.diagnostics := by
  rw [Resolution.diagnostics, h.records, List.flatMap_append]
  simp [Resolution.diagnostics]

/-! ## Without a mistake nothing is rejected -/

/-- No tag is rejected. -/
def Unrejected (s : Resolution) : Prop := ∀ tag, s.isRejected tag = false

theorem verdict_rejects_eq_false (h : (s.verdict d).errors = []) :
    (s.verdict d).rejects = false := by
  rcases verdict_cases s d with ⟨-, hv⟩ | ⟨-, -, hv⟩ | ⟨-, he, hv⟩ <;> rw [hv] at h ⊢
  · rfl
  · rfl
  · exact absurd h he

/-- As long as no permutation is stranded, an event without a mistake rejects nothing, unless
something was rejected before. -/
theorem Event.unrejected (h : Event s c o s') (ho : o.stage ≠ 2)
    (hs : s.diagnostics = [] → s.Unrejected) (hd' : s'.diagnostics = []) : s'.Unrejected := by
  obtain ⟨hd₀, hd⟩ := List.append_eq_nil_iff.mp (h.diagnostics ▸ hd')
  have hs : s.Unrejected := hs hd₀
  have hr : o.rejects = false := by
    cases h with
    | declared d => exact verdict_rejects_eq_false (List.map_eq_nil_iff.mp hd)
    | derived => exact verdict_rejects_eq_false (List.map_eq_nil_iff.mp hd)
    | refused => cases hd
    | skipped hr => rw [hs] at hr; cases hr
    | unfounded => cases hd
    | stranded => exact absurd rfl ho
    | _ => rfl
  intro tag
  rw [← Bool.not_eq_true, h.isRejected_iff, hs tag, hr]
  simp

/-- Without a mistake nothing is rejected, or a permutation that is yet to be stranded will be
one. -/
def Config.Candid (k : Config) : Prop :=
  k.state.diagnostics = [] →
    match k.agenda with
    | .stranding l rest =>
      (k.state.Unrejected ∧ rest = []) ∨ ∃ p ∈ rest, isUnfounded l p = true
    | _ => k.state.Unrejected

theorem Step.candid (hp : k.Poised) (hk : k.Candid) (h : Step ds k k') : k'.Candid := by
  cases h with
  | declare c cs s =>
    obtain ⟨o, ho, he⟩ := declare_event s c
    exact he.unrejected (by omega) hk
  | start s => exact hk
  | derive h =>
    obtain ⟨o, ho, he⟩ := derive_event (hp _ List.mem_cons_self) h
    exact he.unrejected (by omega) hk
  | round h => exact hk
  | @stuck ws s h =>
    -- if anything waits, one of those that wait is unfounded and will be reported
    intro hd
    by_cases hw : ws = []
    · exact Or.inl ⟨hk hd, hw⟩
    · exact Or.inr (exists_isUnfounded hw)
  | strand l p ps s =>
    have hrecords : (strandOne l s p).diagnostics = s.diagnostics ++
        (if isUnfounded l p then Outcome.unfounded p.missingBase else .stranded).diagnostics := by
      simp [Resolution.diagnostics, strandOne, record, reject]
    intro hd
    obtain ⟨hd, hd'⟩ := List.append_eq_nil_iff.mp (hrecords ▸ hd)
    rcases hk hd with ⟨-, h⟩ | ⟨q, hq, hu⟩
    · cases h
    · rcases List.mem_cons.mp hq with rfl | hq
      · rw [if_pos hu] at hd'; cases hd'
      · exact Or.inr ⟨q, hq, hu⟩
  | finish l s =>
    intro hd
    rcases hk hd with ⟨h, -⟩ | ⟨q, hq, -⟩
    · exact h
    · cases hq
  | answer r rs s =>
    obtain ⟨o, ho, he⟩ := answer_event s r
    exact he.unrejected (by omega) hk

theorem Reachable.candid (h : Reachable ds k) : k.Candid := by
  induction h with
  | refl => exact fun _ _ => rfl
  | tail hr hstep ih => exact hstep.candid (Reachable.poised hr) ih

/-! ## Transforms -/

/-- The transforms are the answers to the requests that are off the agenda. -/
def Config.Answers (ds : List Declaration) : Config → Prop
  | ⟨.answering rest, s⟩ => ∃ done, done ++ rest = requests ds ∧
    s.transforms = done.filterMap (·.answer? s.domains)
  | ⟨_, s⟩ => s.transforms = []

theorem Event.transforms_of_stage (h : Event s c o s') (ho : o.stage < 3) :
    s'.transforms = s.transforms := by
  rw [h.transforms]
  cases h with
  | deferred => rw [show Record.transform? ⟨c, .deferred⟩ = none by cases c <;> rfl]; simp
  | answered => exact absurd ho (Nat.lt_irrefl 3)
  | _ => exact List.append_nil _

theorem answer_transforms (s : Resolution) (r : TransformRequest) :
    (s.answer r).transforms = s.transforms ++ (r.answer? s.domains).toList := by
  unfold answer TransformRequest.answer?
  cases s.domains.get? r.source with
  | none => exact (List.append_nil _).symm
  | some a =>
    cases s.domains.get? r.destination with
    | none => exact (List.append_nil _).symm
    | some b => rfl

theorem Step.answers (hp : k.Poised) (hk : k.Answers ds) (h : Step ds k k') : k'.Answers ds := by
  cases h with
  | declare c cs s =>
    obtain ⟨o, ho, he⟩ := declare_event s c
    exact (he.transforms_of_stage (by omega)).trans hk
  | derive h =>
    obtain ⟨o, ho, he⟩ := derive_event (hp _ List.mem_cons_self) h
    exact (he.transforms_of_stage (by omega)).trans hk
  | finish l s => exact ⟨[], rfl, hk⟩
  | answer r rs s =>
    obtain ⟨done, hd, ht⟩ := hk
    obtain ⟨o, ho, he⟩ := answer_event s r
    have hdom := he.domains_of_none (Outcome.published?_of_stage (by omega))
    refine ⟨done ++ [r], by rw [← hd]; simp, ?_⟩
    rw [answer_transforms, ht, hdom, filterMap_concat]
  | _ => exact hk

theorem Reachable.answers (h : Reachable ds k) : k.Answers ds := by
  induction h with
  | refl => rfl
  | tail hr hstep ih => exact hstep.answers (Reachable.poised hr) ih

/-- **The transforms**, one for each request whose ends are published, in the order of requests. -/
theorem Reachable.transforms_eq (h : Reachable ds ⟨.answering [], s⟩) :
    s.transforms = (requests ds).filterMap (·.answer? s.domains) := by
  obtain ⟨done, hd, ht⟩ := h.answers
  rw [List.append_nil] at hd
  exact hd ▸ ht

/-! ## Counting what took effect -/

theorem Reachable.length_plainRecords (h : Reachable ds ⟨.answering [], s⟩) :
    s.plainRecords.length = (domains ds).length + (permutations ds).length := by
  have := h.perm_plainRecords.length_eq
  rwa [List.length_map, definitions, List.length_append, List.length_map, List.length_map] at this

theorem Reachable.entries_eq (h : Reachable ds k) :
    k.state.domains.entries = k.state.plainRecords.filterMap Record.publication? := by
  rw [h.recorded.entries, plainRecords, List.filter_filter, List.filterMap_filter]
  refine List.filterMap_congr fun r hr => ?_
  split
  · rfl
  · next hn =>
    rw [← Option.not_isSome_iff_eq_none]
    intro he
    have := (h.explains hr).plain_of_publication? he
    simp [this.1, this.2] at hn

theorem Reachable.size_domains_eq_iff (h : Reachable ds ⟨.answering [], s⟩) :
    s.domains.size = (domains ds).length + (permutations ds).length ↔
      ∀ r ∈ s.plainRecords, r.publication?.isSome = true := by
  rw [OrderedMap.size, h.entries_eq, ← h.length_plainRecords, List.filterMap_length_eq_length]

theorem Reachable.length_transforms_eq_iff (h : Reachable ds ⟨.answering [], s⟩) :
    s.transforms.length = (requests ds).length ↔
      ∀ r ∈ requests ds, (r.answer? s.domains).isSome = true := by
  rw [h.transforms_eq, List.filterMap_length_eq_length]

/-! ## No mistakes -/

/-- A record that publishes a domain reports no mistake, and the domain is what was declared. -/
theorem Explains.effective (h : s.Explains r.declaration r.outcome)
    (he : r.publication?.isSome = true) :
    r.outcome.diagnostics = [] ∧
      (∀ d, r.declaration = domain d → s.domains.get? d.tag = some d) ∧
      ∀ p, r.declaration = permutation p →
        ∃ d, p.apply s.domains = .ok d ∧ s.domains.get? p.tag = some d := by
  obtain ⟨c, o⟩ := r
  cases h with
  | declared hv =>
    cases hv with
    | published _ hd => exact ⟨rfl, fun d' e => by cases e; exact hd, nofun⟩
    | duplicate | invalid => cases he
  | derived hb ha hv =>
    cases hv with
    | published _ hd =>
      refine ⟨rfl, nofun, fun p e => ?_⟩
      cases e
      exact ⟨_, by rw [Permutation.apply_of_get? hb, ha], Permutation.tag_of_applyTo ha ▸ hd⟩
    | duplicate | invalid => cases he
  | _ => cases he

theorem Upholds.published?_isSome {v : Verdict} (h : s.Upholds d v) (hv : v.errors = []) :
    v.published?.isSome = true := by
  cases h with
  | published => rfl
  | duplicate => cases hv
  | invalid he => exact absurd hv he

theorem mem_endpoints {r : TransformRequest} :
    tag ∈ endpoints r ↔ tag = r.source ∨ tag = r.destination := by
  rw [endpoints]
  split
  · next h => rw [List.mem_singleton, h, or_self]
  · rw [List.mem_pair]

theorem answer?_eq_some_iff {r : TransformRequest} {domains : DomainMap} {t : Transform} :
    r.answer? domains = some t ↔ ∃ a b, domains.get? r.source = some a ∧
      domains.get? r.destination = some b ∧ r.answer a b = t := by
  unfold TransformRequest.answer?
  cases domains.get? r.source <;> cases domains.get? r.destination <;> simp

/-- Every plain domain and every permutation published its domain, and every request was
answered. -/
structure Complete (ds : List Declaration) (s : Resolution) : Prop where
  domains : ∀ r ∈ s.plainRecords, r.publication?.isSome = true
  transforms : ∀ r ∈ requests ds, (r.answer? s.domains).isSome = true

theorem Reachable.complete (h : Reachable ds ⟨.answering [], s⟩) (hd : s.diagnostics = []) :
    Complete ds s := by
  have hn : s.Unrejected := h.candid hd
  rw [diagnostics_eq_nil_iff] at hd
  constructor
  · intro r hr
    obtain ⟨hr, ho, hc⟩ := mem_plainRecords.mp hr
    have hdr := hd r hr
    have hrej : r.outcome.rejects = true → False := fun hrej => by
      have := (h.recorded.rejected _).mpr ⟨r, hr, hrej, rfl⟩
      rw [hn] at this
      cases this
    have hex := h.explains hr
    obtain ⟨c, o⟩ := r
    cases hex with
    | deferred => exact absurd rfl ho
    | declared hv =>
      exact Option.isSome_map.trans (hv.published?_isSome (List.map_eq_nil_iff.mp hdr))
    | derived _ _ hv =>
      exact Option.isSome_map.trans (hv.published?_isSome (List.map_eq_nil_iff.mp hdr))
    | answered | undefined => cases hc
    | _ => exact (hrej rfl).elim
  · intro r hr
    obtain ⟨o, hro, ho⟩ := h.exists_record (mem_requests.mp hr)
    have hdr := hd _ hro
    cases h.explains hro with
    | deferred => exact absurd rfl ho
    | answered ha hb =>
      rw [Option.isSome_iff_exists]
      exact ⟨_, answer?_eq_some_iff.mpr ⟨_, _, ha, hb, rfl⟩⟩
    | undefined hno he =>
      have hset : ∀ tag ∈ endpoints r, s.isPublished tag = true := by
        intro tag ht
        rw [Outcome.diagnostics, List.map_eq_nil_iff, he, List.map_eq_nil_iff,
          List.filter_eq_nil_iff] at hdr
        have := hdr tag ht
        rw [Bool.not_eq_true', Bool.not_eq_false, isSettled_iff, hn] at this
        exact this.resolve_right Bool.false_ne_true
      obtain ⟨a, ha⟩ := isPublished_iff.mp (hset _ (mem_endpoints.mpr (Or.inl rfl)))
      obtain ⟨b, hb⟩ := isPublished_iff.mp (hset _ (mem_endpoints.mpr (Or.inr rfl)))
      rw [answer?_eq_some_iff.mpr ⟨a, b, ha, hb, rfl⟩] at hno
      cases hno

theorem Reachable.diagnostics_eq_nil (h : Reachable ds ⟨.answering [], s⟩) (hc : Complete ds s) :
    s.diagnostics = [] := by
  rw [diagnostics_eq_nil_iff]
  intro r hr
  by_cases ho : r.outcome = .deferred
  · rw [ho]; rfl
  by_cases hq : r.declaration.request? = none
  · exact ((h.explains hr).effective (hc.domains r (mem_plainRecords.mpr ⟨hr, ho, hq⟩))).1
  have hex := h.explains hr
  obtain ⟨c, o⟩ := r
  cases hex with
  | answered => rfl
  | undefined hno _ =>
    have := hc.transforms _ (mem_requests.mpr (h.mem_of_decided (mem_decided.mpr ⟨_, hr, ho⟩)))
    rw [hno] at this
    cases this
  | deferred => exact absurd rfl ho
  | _ => exact absurd rfl hq

theorem forall₂_filterMap {α β : Type} {f : α → Option β} {xs : List α}
    (h : ∀ x ∈ xs, (f x).isSome = true) :
    List.Forall₂ (fun x y => f x = some y) xs (xs.filterMap f) := by
  induction xs with
  | nil => exact .nil
  | cons x xs ih =>
    obtain ⟨hx, hxs⟩ := List.forall_mem_cons.mp h
    obtain ⟨y, hy⟩ := Option.isSome_iff_exists.mp hx
    rw [List.filterMap_cons_some hy]
    exact .cons hy (ih hxs)

/-- **A resolution without mistakes is complete.** It finds no mistake exactly if it publishes as
many domains as there are plain domains and permutations, and computes as many transforms as there
are requests. Then every plain domain is published as it is, every permutation as what it makes of
the published domains, and the transforms answer the requests one by one. -/
theorem diagnostics_eq_nil_iff_complete (ds : List Declaration) :
    ∃ s, ofDeclarations ds = .ok s ∧
      (s.diagnostics = [] ↔
        s.domains.size = (domains ds).length + (permutations ds).length ∧
          s.transforms.length = (requests ds).length) ∧
      (s.diagnostics = [] →
        (∀ d, domain d ∈ ds → s.domains.get? d.tag = some d) ∧
        (∀ p, permutation p ∈ ds →
          ∃ d, p.apply s.domains = .ok d ∧ s.domains.get? p.tag = some d) ∧
        List.Forall₂ (fun (r : TransformRequest) t =>
          ∃ a b, s.domains.get? r.source = some a ∧ s.domains.get? r.destination = some b ∧
            t = { name := r.name, source := r.source, destination := r.destination,
                  delta := a.delta b, origin := r.origin })
          (requests ds) s.transforms) := by
  obtain ⟨s, hs, h⟩ := exists_reachable ds
  refine ⟨s, hs, ?_, fun hd => ?_⟩
  · rw [h.size_domains_eq_iff, h.length_transforms_eq_iff]
    exact ⟨fun hd => ⟨(h.complete hd).domains, (h.complete hd).transforms⟩,
      fun hc => h.diagnostics_eq_nil ⟨hc.1, hc.2⟩⟩
  · have hc := h.complete hd
    have heff : ∀ c ∈ ds, c.request? = none → ∃ r ∈ s.records, r.declaration = c ∧
        r.publication?.isSome = true := fun c hm hq => by
      obtain ⟨o, hr, ho⟩ := h.exists_record hm
      exact ⟨⟨c, o⟩, hr, rfl, hc.domains _ (mem_plainRecords.mpr ⟨hr, ho, hq⟩)⟩
    refine ⟨fun d hm => ?_, fun p hm => ?_, ?_⟩
    · obtain ⟨r, hr, hrc, he⟩ := heff _ hm rfl
      exact ((h.explains hr).effective he).2.1 d hrc
    · obtain ⟨r, hr, hrc, he⟩ := heff _ hm rfl
      exact ((h.explains hr).effective he).2.2 p hrc
    · rw [h.transforms_eq]
      refine (forall₂_filterMap hc.transforms).imp fun r t ht => ?_
      obtain ⟨a, b, ha, hb, rfl⟩ := answer?_eq_some_iff.mp ht
      exact ⟨a, b, ha, hb, rfl⟩

end Resolution

end VersionedTypes
