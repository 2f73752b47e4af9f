import VersionedTypes.Proofs.Resolution.Machine

/-!
# What the records say

At the end every declaration has come to one outcome, and what an outcome says still holds then.

* `Declaration.domains`, `Declaration.definitions`: what a list declares;
* `decided`: the declarations whose outcome is known;
* `Config.Accounted`, **`Reachable.perm_decided`**: every declaration is decided once;
* `Explains`, **`Reachable.explains`**: what an outcome says holds from then on;
* `Reachable.exists_record`, `Reachable.mem_of_decided`: declarations and their records;
* `plainRecords`, **`Reachable.isSettled_iff_exists`**: the fate of a tag is known exactly when a
  declaration of it is decided.
-/

namespace VersionedTypes

namespace Declaration

/-- The domain that is declared, if it is one. -/
def domain? : Declaration → Option Domain
  | domain d => some d
  | _ => none

/-- The plain domains of a list, in order. -/
def domains (ds : List Declaration) : List Domain := ds.filterMap domain?

theorem mem_domains {ds : List Declaration} {d : Domain} : d ∈ domains ds ↔ domain d ∈ ds := by
  rw [domains, List.mem_filterMap]
  constructor
  · rintro ⟨c, hc, h⟩; cases c <;> cases h; exact hc
  · exact fun h => ⟨_, h, rfl⟩

theorem mem_permutations {ds : List Declaration} {p : Permutation} :
    p ∈ permutations ds ↔ permutation p ∈ ds := by
  rw [permutations, List.mem_filterMap]
  constructor
  · rintro ⟨c, hc, h⟩; cases c <;> cases h; exact hc
  · exact fun h => ⟨_, h, rfl⟩

theorem mem_requests {ds : List Declaration} {r : TransformRequest} :
    r ∈ requests ds ↔ transform r ∈ ds := by
  rw [requests, List.mem_filterMap]
  constructor
  · rintro ⟨c, hc, h⟩; cases c <;> cases h; exact hc
  · exact fun h => ⟨_, h, rfl⟩

/-- The declarations of a list that declare a domain: the plain ones, then the permutations. -/
def definitions (ds : List Declaration) : List Declaration :=
  (domains ds).map domain ++ (permutations ds).map permutation

theorem mem_definitions {ds : List Declaration} {c : Declaration} :
    c ∈ definitions ds ↔ c ∈ ds ∧ c.request? = none := by
  rw [definitions, List.mem_append, List.mem_map, List.mem_map]
  cases c <;> simp [mem_domains, mem_permutations, request?]

/-- The declarations of a list, sorted by what they declare. -/
def sorted (ds : List Declaration) : List Declaration :=
  definitions ds ++ (requests ds).map transform

theorem perm_sorted (ds : List Declaration) : (sorted ds).Perm ds := by
  induction ds with
  | nil => exact .refl _
  | cons c cs ih =>
    cases c with
    | domain d => exact ih.cons _
    | permutation p => exact (List.perm_middle.append_right _).trans (ih.cons _)
    | transform r =>
      exact List.perm_middle.trans (ih.cons (transform r))

theorem filter_perm_definitions (ds : List Declaration) :
    (ds.filter fun c => c.request?.isNone).Perm (definitions ds) := by
  have hd : (definitions ds).filter (fun c => c.request?.isNone) = definitions ds :=
    List.filter_eq_self.mpr fun c hc => Option.isNone_iff_eq_none.mpr (mem_definitions.mp hc).2
  have ht : ((requests ds).map transform).filter (fun c => c.request?.isNone) = [] := by
    rw [List.filter_eq_nil_iff]
    intro c hc
    obtain ⟨r, -, rfl⟩ := List.mem_map.mp hc
    exact Bool.false_ne_true
  have := (perm_sorted ds).filter fun c => c.request?.isNone
  rw [sorted, List.filter_append, hd, ht, List.append_nil] at this
  exact this.symm

end Declaration

namespace Resolution

open Declaration

/-- What a verdict on `d` says holds in the state `s`. -/
inductive Upholds (s : Resolution) (d : Domain) : Verdict → Prop
  | published (he : d.errors = []) (hd : s.domains.get? d.tag = some d) :
    Upholds s d (.published d)
  | duplicate (hs : s.isSettled d.tag = true) : Upholds s d (.duplicate d)
  | invalid (he : d.errors ≠ []) (hr : s.isRejected d.tag = true) :
    Upholds s d (.invalid d d.errors)

/-- **What an outcome says** of a declaration holds in the state `s`. -/
inductive Explains (s : Resolution) : Declaration → Outcome → Prop
  | deferred {c : Declaration} (hc : ∀ d, c ≠ domain d) : Explains s c .deferred
  | declared {d : Domain} {v : Verdict} (hv : s.Upholds d v) : Explains s (domain d) (.declared v)
  | derived {p : Permutation} {base d : Domain} {v : Verdict}
      (hb : s.domains.get? p.base = some base) (hd : p.applyTo base = .ok d) (hv : s.Upholds d v) :
    Explains s (permutation p) (.derived base v)
  | refused {p : Permutation} {base : Domain} {e : PermutationError}
      (hb : s.domains.get? p.base = some base) (he : p.applyTo base = .error (.illegal e)) :
    Explains s (permutation p) (.refused (some base) e)
  | skipped {p : Permutation} (hr : s.isRejected p.base = true) :
    Explains s (permutation p) .skipped
  | unfounded {p : Permutation} (hb : s.domains.get? p.base = none) :
    Explains s (permutation p) (.unfounded p.missingBase)
  | stranded {p : Permutation} (hb : s.domains.get? p.base = none) :
    Explains s (permutation p) .stranded
  | answered {r : TransformRequest} {a b : Domain} (ha : s.domains.get? r.source = some a)
      (hb : s.domains.get? r.destination = some b) : Explains s (transform r) (.answered a b)
  | undefined {r : TransformRequest} {errors : List ValidationError}
      (hr : r.answer? s.domains = none)
      (he : errors = ((endpoints r).filter fun tag => !s.isSettled tag).map fun tag =>
        ⟨.undefinedDomain r.name tag, r.origin⟩) :
    Explains s (transform r) (.undefined errors)

variable {ds : List Declaration} {k k' : Config} {s s' : Resolution} {c : Declaration} {o : Outcome}
  {r : Record} {d : Domain} {p : Permutation} {tag : String}

/-! ## Every declaration is decided once -/

/-- The declarations whose outcome is known, in the order in which it was found. -/
def decided (s : Resolution) : List Declaration :=
  (s.records.filter fun r => r.outcome ≠ .deferred).map Record.declaration

theorem mem_decided : c ∈ s.decided ↔ ∃ o, ⟨c, o⟩ ∈ s.records ∧ o ≠ .deferred := by
  simp only [decided, List.mem_map, List.mem_filter, decide_eq_true_eq]
  constructor
  · rintro ⟨⟨c, o⟩, h, rfl⟩; exact ⟨o, h⟩
  · rintro ⟨o, h⟩; exact ⟨_, h, rfl⟩

theorem Event.decided (h : Event s c o s') :
    s'.decided = if o = .deferred then s.decided else s.decided ++ [c] := by
  unfold Resolution.decided
  rw [h.records, List.filter_append, List.map_append]
  split
  · next ho => rw [ho]; simp
  · next ho => simp [ho]

theorem Event.decided_of_stage (h : Event s c o s') (ho : 0 < o.stage) :
    s'.decided = s.decided ++ [c] := by
  rw [h.decided, if_neg]
  rintro rfl
  exact Nat.lt_irrefl _ ho

/-- The decided declarations and those on the agenda are the declarations of the list. -/
def Config.Accounted (ds : List Declaration) : Config → Prop
  | ⟨.reading rest, s⟩ => ∃ read, read ++ rest = ds ∧ s.decided = (domains read).map domain
  | ⟨.applying ready waiting, s⟩ =>
    (s.decided ++ (ready ++ waiting).map permutation).Perm (definitions ds)
  | ⟨.stranding _ rest, s⟩ => (s.decided ++ rest.map permutation).Perm (definitions ds)
  | ⟨.answering rest, s⟩ => (s.decided ++ rest.map transform).Perm ds

theorem decided_declare (s : Resolution) (c : Declaration) :
    (s.declare c).decided = s.decided ++ (domains [c]).map domain := by
  cases c with
  | domain d => exact (Event.declared d).decided
  | permutation p =>
    have he : Event s (permutation p) .deferred (s.declare (permutation p)) := .deferred nofun
    exact he.decided.trans (List.append_nil _).symm
  | transform r =>
    have he : Event s (transform r) .deferred (s.declare (transform r)) := .deferred nofun
    exact he.decided.trans (List.append_nil _).symm

theorem ready_append_waiting (s : Resolution) (ws : List Permutation) :
    (s.ready ws ++ s.waiting ws).Perm ws := by
  have := List.filter_append_perm (fun p : Permutation => s.isSettled p.base) ws
  simpa [ready, waiting] using this

theorem Step.accounted (hp : k.Poised) (hk : k.Accounted ds) (h : Step ds k k') :
    k'.Accounted ds := by
  cases h with
  | declare c cs s =>
    obtain ⟨read, rfl, hd⟩ := hk
    refine ⟨read ++ [c], by simp, ?_⟩
    rw [decided_declare, hd, domains, domains, domains, List.filterMap_append, List.map_append]
  | start s =>
    obtain ⟨read, hr, hd⟩ := hk
    rw [List.append_nil] at hr
    subst hr
    rw [Config.Accounted, hd]
    exact .refl _
  | derive h =>
    obtain ⟨o, ho, he⟩ := derive_event (hp _ List.mem_cons_self) h
    rw [Config.Accounted, he.decided_of_stage (by omega), List.append_assoc]
    exact hk
  | round h =>
    exact (((ready_append_waiting _ _).map _).append_left _).trans hk
  | stuck h => exact hk
  | strand l p ps s =>
    obtain ⟨o, ho, he⟩ := strandOne_event l (hp p List.mem_cons_self)
    rw [Config.Accounted, he.decided_of_stage (by omega), List.append_assoc]
    exact hk
  | finish l s =>
    have hk : (s.decided ++ []).Perm _ := hk
    rw [List.append_nil] at hk
    exact (hk.append_right _).trans (perm_sorted ds)
  | answer r rs s =>
    obtain ⟨o, ho, he⟩ := answer_event s r
    rw [Config.Accounted, he.decided_of_stage (by omega), List.append_assoc]
    exact hk

theorem Reachable.accounted (h : Reachable ds k) : k.Accounted ds := by
  induction h with
  | refl => exact ⟨[], rfl, rfl⟩
  | tail hr hstep ih => exact hstep.accounted (Reachable.poised hr) ih

theorem Reachable.declared_of_applying {ready waiting : List Permutation}
    (h : Reachable ds ⟨.applying ready waiting, s⟩) (hp : p ∈ ready ++ waiting) :
    permutation p ∈ ds := by
  exact (mem_definitions.mp (h.accounted.mem_iff.mp
    (List.mem_append_right _ (List.mem_map_of_mem hp)))).1

theorem Reachable.domain_decided (h : Reachable ds k) (hk : 0 < k.stage) (hd : domain d ∈ ds) :
    domain d ∈ k.state.decided := by
  have hm : domain d ∈ definitions ds := mem_definitions.mpr ⟨hd, rfl⟩
  obtain ⟨agenda, s⟩ := k
  cases agenda with
  | reading rest => exact absurd hk (Nat.lt_irrefl 0)
  | applying ready waiting =>
    refine (List.mem_append.mp (h.accounted.mem_iff.mpr hm)).resolve_right fun hm => ?_
    obtain ⟨q, -, e⟩ := List.mem_map.mp hm; cases e
  | stranding l rest =>
    refine (List.mem_append.mp (h.accounted.mem_iff.mpr hm)).resolve_right fun hm => ?_
    obtain ⟨q, -, e⟩ := List.mem_map.mp hm; cases e
  | answering rest =>
    refine (List.mem_append.mp (h.accounted.mem_iff.mpr hd)).resolve_right fun hm => ?_
    obtain ⟨q, -, e⟩ := List.mem_map.mp hm; cases e

/-- **At the end every declaration is decided, once.** -/
theorem Reachable.perm_decided (h : Reachable ds ⟨.answering [], s⟩) : s.decided.Perm ds := by
  have : (s.decided ++ []).Perm ds := h.accounted
  rwa [List.append_nil] at this

theorem Reachable.exists_record (h : Reachable ds ⟨.answering [], s⟩) (hc : c ∈ ds) :
    ∃ o, ⟨c, o⟩ ∈ s.records ∧ o ≠ .deferred :=
  mem_decided.mp (h.perm_decided.mem_iff.mpr hc)

theorem Reachable.mem_of_decided (h : Reachable ds k) (hc : c ∈ k.state.decided) : c ∈ ds := by
  have ha := h.accounted
  obtain ⟨agenda, s⟩ := k
  cases agenda with
  | reading rest =>
    obtain ⟨read, rfl, hd⟩ := ha
    obtain ⟨d, hd, rfl⟩ := List.mem_map.mp (hd ▸ hc)
    exact List.mem_append_left _ (mem_domains.mp hd)
  | applying ready waiting =>
    exact (mem_definitions.mp (ha.mem_iff.mp (List.mem_append_left _ hc))).1
  | stranding l rest => exact (mem_definitions.mp (ha.mem_iff.mp (List.mem_append_left _ hc))).1
  | answering rest => exact ha.mem_iff.mp (List.mem_append_left _ hc)

/-! ## What an outcome says holds from then on -/

theorem Event.upholds (h : Event s c o s') (hp : o.published? = (s.verdict d).published?)
    (hr : o.rejects = (s.verdict d).rejects) (hd : d.tag = c.name) :
    s'.Upholds d (s.verdict d) := by
  rcases verdict_cases s d with ⟨hs, hv⟩ | ⟨-, he, hv⟩ | ⟨-, he, hv⟩ <;> rw [hv] at hp hr ⊢
  · exact .duplicate (h.grows.isSettled hs)
  · exact .published he (h.get?_eq_some_iff.mpr (Or.inr ⟨hp, hd⟩))
  · exact .invalid he (h.isRejected_iff.mpr (Or.inr ⟨hr, hd⟩))

theorem Event.explains (h : Event s c o s') : s'.Explains c o := by
  have hg := h.grows
  cases h with
  | deferred hc => exact .deferred hc
  | declared d => exact .declared (Event.upholds (.declared d) rfl rfl rfl)
  | derived hr hb hd =>
    exact .derived (hg.get? hb) hd
      (Event.upholds (.derived hr hb hd) rfl rfl (Permutation.tag_of_applyTo hd))
  | refused _ hb he => exact .refused hb he
  | skipped hr => exact .skipped (hg.rejected _ hr)
  | unfounded hb => exact .unfounded hb
  | stranded hb => exact .stranded hb
  | answered ha hb => exact .answered ha hb
  | undefined hr he => exact .undefined hr he

theorem Upholds.mono {v : Verdict} (h : s.Upholds d v) (hg : Grows s s') : s'.Upholds d v := by
  cases h with
  | published he hd => exact .published he (hg.get? hd)
  | duplicate hs => exact .duplicate (hg.isSettled hs)
  | invalid he hr => exact .invalid he (hg.rejected _ hr)

/-- Later events change nothing that an outcome speaks of. -/
theorem Explains.mono {c' : Declaration} {o' : Outcome} (h : s.Explains c o)
    (he : Event s c' o' s') (hs : o.stage ≤ o'.stage) : s'.Explains c o := by
  have hg := he.grows
  have hdomains : 2 ≤ o.stage → s'.domains = s.domains := fun ho =>
    he.domains_of_none (Outcome.published?_of_stage (by omega))
  have hrejected : 3 ≤ o.stage → s'.rejected = s.rejected := fun ho => by
    rw [he.rejected, Outcome.rejects_of_stage (by omega)]; rfl
  cases h with
  | deferred hc => exact .deferred hc
  | declared hv => exact .declared (hv.mono hg)
  | derived hb hd hv => exact .derived (hg.get? hb) hd (hv.mono hg)
  | refused hb he => exact .refused (hg.get? hb) he
  | skipped hr => exact .skipped (hg.rejected _ hr)
  | unfounded hb => exact .unfounded (hdomains (Nat.le_refl _) ▸ hb)
  | stranded hb => exact .stranded (hdomains (Nat.le_refl _) ▸ hb)
  | answered ha hb => exact .answered (hg.get? ha) (hg.get? hb)
  | undefined hr he =>
    have hd := hdomains (Nat.le_succ _)
    refine .undefined (hd ▸ hr) (he.trans ?_)
    simp only [isSettled, isPublished, isRejected, hd, hrejected (Nat.le_refl _)]

theorem Reachable.stage_le (h : Reachable ds k) (hr : r ∈ k.state.records) :
    r.outcome.stage ≤ k.stage := by
  induction h with
  | refl => cases hr
  | tail hk hstep ih =>
    rcases Reachable.event hk hstep with e | ⟨c, o, ho, he⟩
    · exact Nat.le_trans (ih (e ▸ hr)) hstep.stage_le
    · rw [he.records, List.mem_append, List.mem_singleton] at hr
      rcases hr with hr | rfl
      · exact Nat.le_trans (ih hr) hstep.stage_le
      · exact ho ▸ hstep.stage_le

/-- **What an outcome says holds from then on.** -/
theorem Reachable.explains (h : Reachable ds k) (hr : r ∈ k.state.records) :
    k.state.Explains r.declaration r.outcome := by
  induction h with
  | refl => cases hr
  | tail hk hstep ih =>
    rcases Reachable.event hk hstep with e | ⟨c, o, ho, he⟩
    · exact e ▸ ih (e ▸ hr)
    · rw [he.records, List.mem_append, List.mem_singleton] at hr
      rcases hr with hr | rfl
      · exact (ih hr).mono he (ho ▸ Reachable.stage_le hk hr)
      · exact he.explains

/-! ## The fate of a tag -/

theorem Upholds.isSettled {v : Verdict} (h : s.Upholds d v) : s.isSettled d.tag = true := by
  cases h with
  | published he hd => exact isSettled_iff.mpr (Or.inl (isPublished_of_get? hd))
  | duplicate hs => exact hs
  | invalid he hr => exact isSettled_iff.mpr (Or.inr hr)

/-- The records of plain domains and permutations whose outcome is known. -/
def plainRecords (s : Resolution) : List Record :=
  (s.records.filter fun r => r.outcome ≠ .deferred).filter fun r => r.declaration.request?.isNone

theorem mem_plainRecords :
    r ∈ s.plainRecords ↔
      r ∈ s.records ∧ r.outcome ≠ .deferred ∧ r.declaration.request? = none := by
  rw [plainRecords, List.mem_filter, List.mem_filter, decide_eq_true_eq, Option.isNone_iff_eq_none,
    and_assoc]

theorem Reachable.perm_plainRecords (h : Reachable ds ⟨.answering [], s⟩) :
    (s.plainRecords.map Record.declaration).Perm (definitions ds) := by
  have := (h.perm_decided.filter fun c => c.request?.isNone).trans (filter_perm_definitions ds)
  rwa [decided, List.filter_map] at this

theorem Explains.plain_of_publication? (h : s.Explains r.declaration r.outcome)
    (he : r.publication?.isSome = true) :
    r.outcome ≠ .deferred ∧ r.declaration.request? = none := by
  obtain ⟨c, o⟩ := r
  cases h with
  | declared | derived => exact ⟨nofun, rfl⟩
  | _ => cases he

theorem Explains.plain_of_rejects (h : s.Explains r.declaration r.outcome)
    (he : r.outcome.rejects = true) : r.outcome ≠ .deferred ∧ r.declaration.request? = none := by
  obtain ⟨c, o⟩ := r
  cases h with
  | deferred | answered | undefined => cases he
  | _ => exact ⟨nofun, rfl⟩

theorem Reachable.exists_of_get? (h : Reachable ds k) (hd : k.state.domains.get? tag = some d) :
    ∃ r ∈ k.state.plainRecords, r.declaration.name = tag ∧ r.outcome.published? = some d := by
  rw [OrderedMap.get?_eq_some_iff, h.recorded.entries] at hd
  obtain ⟨r, hr, he⟩ := List.mem_filterMap.mp hd
  have hp := (h.explains hr).plain_of_publication? (Option.isSome_of_mem he)
  obtain ⟨d', ho, e⟩ := Option.map_eq_some_iff.mp he
  cases e
  exact ⟨r, mem_plainRecords.mpr ⟨hr, hp⟩, rfl, ho⟩

theorem Reachable.exists_of_isRejected (h : Reachable ds k) (ht : k.state.isRejected tag = true) :
    ∃ r ∈ k.state.plainRecords, r.declaration.name = tag ∧ r.outcome.rejects = true := by
  obtain ⟨r, hr, ho, rfl⟩ := (h.recorded.rejected tag).mp ht
  exact ⟨r, mem_plainRecords.mpr ⟨hr, (h.explains hr).plain_of_rejects ho⟩, rfl, ho⟩

/-- **The fate of a tag is known** exactly when a declaration of it is decided. -/
theorem Reachable.isSettled_iff_exists (h : Reachable ds k) :
    k.state.isSettled tag = true ↔ ∃ r ∈ k.state.plainRecords, r.declaration.name = tag := by
  constructor
  · intro ht
    rcases isSettled_iff.mp ht with ht | ht
    · obtain ⟨d, hd⟩ := isPublished_iff.mp ht
      obtain ⟨r, hr, e, -⟩ := h.exists_of_get? hd
      exact ⟨r, hr, e⟩
    · obtain ⟨r, hr, e, -⟩ := h.exists_of_isRejected ht
      exact ⟨r, hr, e⟩
  · rintro ⟨⟨c, o⟩, hr, rfl⟩
    obtain ⟨hr, ho, hc⟩ := mem_plainRecords.mp hr
    have hrejects : o.rejects = true → k.state.isSettled c.name = true := fun he =>
      isSettled_iff.mpr (Or.inr ((h.recorded.rejected _).mpr ⟨_, hr, he, rfl⟩))
    cases h.explains hr with
    | deferred => exact absurd rfl ho
    | declared hv => exact hv.isSettled
    | derived _ hd hv =>
      have := hv.isSettled
      rwa [Permutation.tag_of_applyTo hd] at this
    | answered | undefined => cases hc
    | _ => exact hrejects rfl

theorem Reachable.isSettled_of_decided (h : Reachable ds k) (hc : c ∈ k.state.decided)
    (hq : c.request? = none) : k.state.isSettled c.name = true := by
  obtain ⟨o, hr, ho⟩ := mem_decided.mp hc
  exact h.isSettled_iff_exists.mpr ⟨⟨c, o⟩, mem_plainRecords.mpr ⟨hr, ho, hq⟩, rfl⟩

end Resolution

end VersionedTypes
