import VersionedTypes.Proofs.Application
import VersionedTypes.Proofs.Ordered
import VersionedTypes.Universe.Resolution

/-!
# The events of a resolution

Whatever a resolution does, it does to one declaration at a time, and it writes down one record of
it. `Event s c o s'` says that the declaration `c` comes to the outcome `o` and turns the state `s`
into `s'`; its constructors are all that can happen. An event adds at most one domain, under a tag
whose fate was open, and rejects at most the tag of its declaration.

* `Event`, with `declare_event`, `derive_event`, `strandOne_event`, `answer_event`: the steps of a
  resolution are events;
* `answer_of_published`, `answer_of_unpublished`: the two ways of a request;
* `Event.records`, `Event.domains`, `Event.rejected`, `Event.transforms`: what an event changes;
* **`Event.grows`**: nothing is ever taken back;
* `Sound`: every published domain is valid and has the tag it is published under.
-/

namespace VersionedTypes

/-- The domain that a verdict publishes. -/
def Verdict.published? : Verdict → Option Domain
  | .published d => some d
  | _ => none

/-- The verdict rejects the tag. -/
def Verdict.rejects : Verdict → Bool
  | .invalid _ _ => true
  | _ => false

/-- The verdict on the domain that a declaration wants to publish. -/
def Outcome.verdict? : Outcome → Option Verdict
  | .declared v | .derived _ v => some v
  | _ => none

/-- The domain that a declaration with this outcome publishes. -/
def Outcome.published? : Outcome → Option Domain
  | .declared v | .derived _ v => v.published?
  | _ => none

/-- A declaration with this outcome has its tag rejected. -/
def Outcome.rejects : Outcome → Bool
  | .declared v | .derived _ v => v.rejects
  | .refused _ _ | .skipped | .unfounded _ | .stranded => true
  | _ => false

/-- The transform that answers a request between published domains. -/
def TransformRequest.answer? (domains : DomainMap) (r : TransformRequest) : Option Transform :=
  match domains.get? r.source, domains.get? r.destination with
  | some source, some destination => some (r.answer source destination)
  | _, _ => none

/-- The stage of the resolution in which an outcome is found: reading, applying permutations,
stranding, answering. -/
def Outcome.stage : Outcome → Nat
  | .deferred | .declared _ => 0
  | .derived _ _ | .refused _ _ | .skipped => 1
  | .unfounded _ | .stranded => 2
  | .answered _ _ | .undefined _ => 3

theorem Outcome.published?_of_stage {o : Outcome} (h : 2 ≤ o.stage) : o.published? = none := by
  cases o <;> first | rfl | (simp only [stage] at h; omega)

theorem Outcome.rejects_of_stage {o : Outcome} (h : 3 ≤ o.stage) : o.rejects = false := by
  cases o <;> first | rfl | (simp only [stage] at h; omega)

/-- What is published is not rejected. -/
theorem Outcome.rejects_of_published? {o : Outcome} {d : Domain} (h : o.published? = some d) :
    o.rejects = false := by
  cases o with
  | declared v | derived _ v => cases v <;> first | rfl | cases h
  | _ => cases h

/-- The entry that a declaration adds to the published domains. -/
def Record.publication? (r : Record) : Option (String × Domain) :=
  r.outcome.published?.map fun d => (r.declaration.name, d)

/-- The transform that a declaration adds. -/
def Record.transform? : Record → Option Transform
  | ⟨.transform r, .answered source destination⟩ => some (r.answer source destination)
  | _ => none

namespace Resolution

/-- **What can happen** to a declaration in the state `s`, and the state afterwards. -/
inductive Event (s : Resolution) : Declaration → Outcome → Resolution → Prop
  | deferred {c : Declaration} (hc : ∀ d, c ≠ .domain d) :
    Event s c .deferred (s.record c .deferred)
  | declared (d : Domain) :
    Event s (.domain d) (.declared (s.verdict d)) (s.publish (.domain d) .declared d)
  | derived {p : Permutation} {base d : Domain} (hr : s.isRejected p.base = false)
      (hb : s.domains.get? p.base = some base) (hd : p.applyTo base = .ok d) :
    Event s (.permutation p) (.derived base (s.verdict d))
      (s.publish (.permutation p) (.derived base) d)
  | refused {p : Permutation} {base : Domain} {e : PermutationError}
      (hr : s.isRejected p.base = false)
      (hb : s.domains.get? p.base = some base) (he : p.applyTo base = .error (.illegal e)) :
    Event s (.permutation p) (.refused (some base) e)
      ((s.reject p.tag).record (.permutation p) (.refused (some base) e))
  | skipped {p : Permutation} (hr : s.isRejected p.base = true) :
    Event s (.permutation p) .skipped ((s.reject p.tag).record (.permutation p) .skipped)
  | unfounded {p : Permutation} (hb : s.domains.get? p.base = none) :
    Event s (.permutation p) (.unfounded p.missingBase)
      ((s.reject p.tag).record (.permutation p) (.unfounded p.missingBase))
  | stranded {p : Permutation} (hb : s.domains.get? p.base = none) :
    Event s (.permutation p) .stranded ((s.reject p.tag).record (.permutation p) .stranded)
  | answered {r : TransformRequest} {a b : Domain}
      (ha : s.domains.get? r.source = some a)
      (hb : s.domains.get? r.destination = some b) :
    Event s (.transform r) (.answered a b)
      ({ s with transforms := s.transforms ++ [r.answer a b] }.record (.transform r)
        (.answered a b))
  | undefined {r : TransformRequest} {errors : List ValidationError}
      (hr : r.answer? s.domains = none)
      (he : errors = ((endpoints r).filter fun tag => !s.isSettled tag).map fun tag =>
        ⟨.undefinedDomain r.name tag, r.origin⟩) :
    Event s (.transform r) (.undefined errors) (s.record (.transform r) (.undefined errors))

variable {s s' s'' : Resolution} {tag : String} {d base : Domain} {p : Permutation}
  {r : TransformRequest} {c : Declaration} {o : Outcome}

/-! ## Published and rejected tags -/

theorem isPublished_iff : s.isPublished tag = true ↔ ∃ d, s.domains.get? tag = some d := by
  rw [isPublished, ← OrderedMap.isSome_get?, Option.isSome_iff_exists]

theorem isPublished_eq_false_iff : s.isPublished tag = false ↔ s.domains.get? tag = none := by
  rw [isPublished, ← OrderedMap.isSome_get?, Option.isSome_eq_false_iff, Option.isNone_iff_eq_none]

theorem isPublished_of_get? (h : s.domains.get? tag = some d) : s.isPublished tag = true :=
  isPublished_iff.mpr ⟨d, h⟩

theorem isSettled_iff :
    s.isSettled tag = true ↔ s.isPublished tag = true ∨ s.isRejected tag = true := by
  rw [isSettled, Bool.or_eq_true]

theorem isSettled_eq_false_iff :
    s.isSettled tag = false ↔ s.isPublished tag = false ∧ s.isRejected tag = false := by
  rw [isSettled, Bool.or_eq_false_iff]

theorem isRejected_iff : s.isRejected tag = true ↔ tag ∈ s.rejected.names := by
  rw [isRejected, List.contains_iff_mem]

/-! ## Verdicts -/

theorem verdict_cases (s : Resolution) (d : Domain) :
    (s.isSettled d.tag = true ∧ s.verdict d = .duplicate d) ∨
      (s.isSettled d.tag = false ∧ d.errors = [] ∧ s.verdict d = .published d) ∨
      (s.isSettled d.tag = false ∧ d.errors ≠ [] ∧ s.verdict d = .invalid d d.errors) := by
  unfold verdict
  cases hs : s.isSettled d.tag with
  | true => exact Or.inl ⟨rfl, rfl⟩
  | false =>
    by_cases he : d.errors = []
    · exact Or.inr (Or.inl ⟨rfl, he, by simp [he]⟩)
    · exact Or.inr (Or.inr ⟨rfl, he, by simp [he]⟩)

/-! ## Steps are events -/

theorem declare_event (s : Resolution) (c : Declaration) :
    ∃ o : Outcome, o.stage = 0 ∧ Event s c o (s.declare c) := by
  cases c with
  | domain d => exact ⟨_, rfl, .declared d⟩
  | permutation p => exact ⟨_, rfl, .deferred fun d h => by cases h⟩
  | transform r => exact ⟨_, rfl, .deferred fun d h => by cases h⟩

theorem derive_event (hp : s.isSettled p.base = true) (h : s.derive p = .ok s') :
    ∃ o : Outcome, o.stage = 1 ∧ Event s (.permutation p) o s' := by
  unfold derive at h
  split at h
  · next hr => cases h; exact ⟨_, rfl, .skipped hr⟩
  · next hr =>
    rw [Bool.not_eq_true] at hr
    split at h
    · next hb =>
      rw [isSettled, isPublished_eq_false_iff.mpr hb, hr] at hp
      cases hp
    · next base hb =>
      split at h
      · next d hd => cases h; exact ⟨_, rfl, .derived hr hb hd⟩
      · next e he => cases h; exact ⟨_, rfl, .refused hr hb he⟩
      · cases h

theorem strandOne_event (links : OrderedMap String) (hb : s.domains.get? p.base = none) :
    ∃ o : Outcome, o.stage = 2 ∧ Event s (.permutation p) o (strandOne links s p) := by
  unfold strandOne
  split
  · exact ⟨_, rfl, .unfounded hb⟩
  · exact ⟨_, rfl, .stranded hb⟩

theorem answer_event (s : Resolution) (r : TransformRequest) :
    ∃ o : Outcome, o.stage = 3 ∧ Event s (.transform r) o (s.answer r) := by
  unfold answer
  split
  · next a b ha hb => exact ⟨_, rfl, .answered ha hb⟩
  · next h =>
    refine ⟨_, rfl, .undefined ?_ rfl⟩
    unfold TransformRequest.answer?
    split
    · next a b ha hb => exact absurd hb (h a b ha)
    · rfl

/-- The mistakes in a request that cannot be answered. -/
def openEnds (s : Resolution) (r : TransformRequest) : List ValidationError :=
  ((endpoints r).filter fun tag => !s.isSettled tag).map fun tag =>
    ⟨.undefinedDomain r.name tag, r.origin⟩

theorem answer_of_published {a b : Domain} (ha : s.domains.get? r.source = some a)
    (hb : s.domains.get? r.destination = some b) :
    s.answer r = Resolution.record { s with transforms := s.transforms ++ [r.answer a b] }
      (.transform r) (.answered a b) := by
  rw [answer, ha, hb]

theorem answer_of_unpublished
    (h : s.domains.get? r.source = none ∨ s.domains.get? r.destination = none) :
    s.answer r = s.record (.transform r) (.undefined (s.openEnds r)) := by
  unfold answer
  split
  · next a b ha hb => simp [ha, hb] at h
  · rfl

/-! ## What an event changes -/

theorem publish_domains (s : Resolution) (c : Declaration) (f : Verdict → Outcome) (d : Domain) :
    (s.publish c f d).domains =
      (s.verdict d).published?.elim s.domains (s.domains.insert d.tag) := by
  rcases verdict_cases s d with ⟨-, hv⟩ | ⟨-, -, hv⟩ | ⟨-, -, hv⟩ <;>
    rw [publish, hv] <;> rfl

theorem publish_rejected (s : Resolution) (c : Declaration) (f : Verdict → Outcome) (d : Domain) :
    (s.publish c f d).rejected =
      bif (s.verdict d).rejects then s.rejected.insert d.tag else s.rejected := by
  rcases verdict_cases s d with ⟨-, hv⟩ | ⟨-, -, hv⟩ | ⟨-, -, hv⟩ <;>
    rw [publish, hv] <;> rfl

theorem publish_transforms (s : Resolution) (c : Declaration) (f : Verdict → Outcome) (d : Domain) :
    (s.publish c f d).transforms = s.transforms := by
  rcases verdict_cases s d with ⟨-, hv⟩ | ⟨-, -, hv⟩ | ⟨-, -, hv⟩ <;>
    rw [publish, hv] <;> rfl

theorem publish_records (s : Resolution) (c : Declaration) (f : Verdict → Outcome) (d : Domain) :
    (s.publish c f d).records = s.records ++ [⟨c, f (s.verdict d)⟩] := by
  rcases verdict_cases s d with ⟨-, hv⟩ | ⟨-, -, hv⟩ | ⟨-, -, hv⟩ <;>
    rw [publish, hv] <;> rfl

theorem eq_of_published?_verdict {d' : Domain} (h : (s.verdict d).published? = some d') :
    d' = d ∧ s.isSettled d.tag = false ∧ d.errors = [] := by
  rcases verdict_cases s d with ⟨-, hv⟩ | ⟨hs, he, hv⟩ | ⟨-, -, hv⟩ <;> rw [hv] at h <;> cases h
  exact ⟨rfl, hs, he⟩

namespace Event

theorem records (h : Event s c o s') : s'.records = s.records ++ [⟨c, o⟩] := by
  cases h with
  | declared d => exact publish_records ..
  | derived => exact publish_records ..
  | _ => rfl

theorem domains (h : Event s c o s') :
    s'.domains = o.published?.elim s.domains (s.domains.insert c.name) := by
  cases h with
  | declared d => exact publish_domains ..
  | derived _ _ hd => rw [publish_domains, Permutation.tag_of_applyTo hd]; rfl
  | _ => rfl

theorem domains_of_none (h : Event s c o s') (ho : o.published? = none) :
    s'.domains = s.domains := by
  rw [h.domains, ho]
  rfl

theorem rejected (h : Event s c o s') :
    s'.rejected = bif o.rejects then s.rejected.insert c.name else s.rejected := by
  cases h with
  | declared d => exact publish_rejected ..
  | derived _ _ hd => rw [publish_rejected, Permutation.tag_of_applyTo hd]; rfl
  | _ => rfl

theorem published (h : Event s c o s') (hd : o.published? = some d) :
    d.tag = c.name ∧ d.errors = [] ∧ s.isSettled c.name = false := by
  cases h with
  | declared d =>
    obtain ⟨rfl, hs, he⟩ := eq_of_published?_verdict hd
    exact ⟨rfl, he, hs⟩
  | derived _ _ ha =>
    obtain ⟨rfl, hs, he⟩ := eq_of_published?_verdict hd
    rw [Permutation.tag_of_applyTo ha] at hs ⊢
    exact ⟨rfl, he, hs⟩
  | _ => cases hd

theorem entries (h : Event s c o s') :
    s'.domains.entries = s.domains.entries ++ (Record.publication? ⟨c, o⟩).toList := by
  rw [h.domains, Record.publication?]
  cases hd : o.published? with
  | none => exact (List.append_nil _).symm
  | some d =>
    have hn := (isSettled_eq_false_iff.mp (h.published hd).2.2).1
    exact OrderedMap.entries_insert_of_get?_eq_none (isPublished_eq_false_iff.mp hn)

theorem transforms (h : Event s c o s') :
    s'.transforms = s.transforms ++ (Record.transform? ⟨c, o⟩).toList := by
  cases h with
  | deferred => rw [show Record.transform? ⟨c, .deferred⟩ = none by cases c <;> rfl]; simp; rfl
  | declared d => rw [publish_transforms]; exact (List.append_nil _).symm
  | derived => rw [publish_transforms]; exact (List.append_nil _).symm
  | answered => rfl
  | _ => exact (List.append_nil _).symm

theorem entries_of_some (h : Event s c o s') (ho : o.published? = some d) :
    s'.domains.entries = s.domains.entries ++ [(c.name, d)] := by
  rw [h.entries, Record.publication?, ho]
  rfl

theorem isRejected_iff (h : Event s c o s') :
    s'.isRejected tag = true ↔ s.isRejected tag = true ∨ o.rejects = true ∧ tag = c.name := by
  simp only [Resolution.isRejected_iff, h.rejected]
  cases o.rejects <;> simp [or_comm]

theorem get?_eq_some_iff (h : Event s c o s') :
    s'.domains.get? tag = some d ↔
      s.domains.get? tag = some d ∨ o.published? = some d ∧ tag = c.name := by
  simp only [OrderedMap.get?_eq_some_iff, h.entries, Record.publication?, List.mem_append,
    Option.mem_toList, Option.map_eq_some_iff, Prod.mk.injEq]
  refine or_congr Iff.rfl ⟨?_, ?_⟩
  · rintro ⟨_, hd, rfl, rfl⟩; exact ⟨hd, rfl⟩
  · rintro ⟨hd, rfl⟩; exact ⟨d, hd, rfl, rfl⟩

end Event

/-! ## States only grow -/

/-- Everything that `s` has found out still stands in `s'`. -/
structure Grows (s s' : Resolution) : Prop where
  entries : s.domains.entries <+: s'.domains.entries
  rejected : ∀ tag, s.isRejected tag = true → s'.isRejected tag = true
  records : s.records <+: s'.records

namespace Grows

theorem refl (s : Resolution) : Grows s s := ⟨List.prefix_rfl, fun _ h => h, List.prefix_rfl⟩

theorem trans (h : Grows s s') (h' : Grows s' s'') : Grows s s'' :=
  ⟨h.entries.trans h'.entries, fun t ht => h'.rejected t (h.rejected t ht),
    h.records.trans h'.records⟩

theorem get? (h : Grows s s') (hd : s.domains.get? tag = some d) : s'.domains.get? tag = some d :=
  OrderedMap.get?_of_isPrefix h.entries hd

theorem isPublished (h : Grows s s') (hp : s.isPublished tag = true) :
    s'.isPublished tag = true := by
  obtain ⟨d, hd⟩ := isPublished_iff.mp hp
  exact isPublished_of_get? (h.get? hd)

theorem isSettled (h : Grows s s') (hp : s.isSettled tag = true) : s'.isSettled tag = true :=
  isSettled_iff.mpr ((isSettled_iff.mp hp).imp h.isPublished (h.rejected tag))

end Grows

/-- **An event takes nothing back.** -/
theorem Event.grows (h : Event s c o s') : Grows s s' :=
  ⟨h.entries ▸ List.prefix_append .., fun _ ht => h.isRejected_iff.mpr (Or.inl ht),
    h.records ▸ List.prefix_append ..⟩

/-! ## The records tell everything -/

/-- The published domains, the rejected tags and the transforms are those of the records. -/
structure Recorded (s : Resolution) : Prop where
  entries : s.domains.entries = s.records.filterMap Record.publication?
  rejected : ∀ tag, s.isRejected tag = true ↔
    ∃ r ∈ s.records, r.outcome.rejects = true ∧ tag = r.declaration.name
  transforms : s.transforms = s.records.filterMap Record.transform?

theorem recorded_empty : Recorded {} where
  entries := rfl
  rejected tag := by
    constructor
    · intro h; cases h
    · rintro ⟨r, hr, -⟩; exact absurd hr List.not_mem_nil
  transforms := rfl

theorem filterMap_concat {α β : Type} (f : α → Option β) (xs : List α) (x : α) :
    (xs ++ [x]).filterMap f = xs.filterMap f ++ (f x).toList := by
  rw [List.filterMap_append]
  cases h : f x <;> simp [h]

theorem Event.recorded (h : Event s c o s') (hs : s.Recorded) : s'.Recorded where
  entries := by rw [h.entries, h.records, filterMap_concat, hs.entries]
  rejected tag := by
    rw [h.isRejected_iff, hs.rejected, h.records]
    simp only [List.mem_append, List.mem_singleton, or_and_right, exists_or, exists_eq_left]
  transforms := by rw [h.transforms, h.records, filterMap_concat, hs.transforms]

/-! ## Published domains are valid -/

/-- Every published domain is valid and has the tag it is published under. -/
def Sound (s : Resolution) : Prop :=
  ∀ tag d, s.domains.get? tag = some d → d.tag = tag ∧ d.errors = []

theorem sound_empty : Sound {} := fun _ _ h => by cases h

theorem Event.sound (h : Event s c o s') (hs : s.Sound) : s'.Sound := by
  intro tag d hd
  rcases h.get?_eq_some_iff.mp hd with hd | ⟨ho, rfl⟩
  · exact hs tag d hd
  · exact ⟨(h.published ho).1, (h.published ho).2.1⟩

/-- No permutation of a sound state breaks a promise. -/
theorem Sound.exists_derive (hs : s.Sound) (p : Permutation) : ∃ s', s.derive p = .ok s' := by
  unfold derive
  split
  · exact ⟨_, rfl⟩
  · split
    · exact ⟨_, rfl⟩
    · next base hb =>
      split
      · exact ⟨_, rfl⟩
      · exact ⟨_, rfl⟩
      · next f hf => exact absurd hf (Permutation.applyTo_ne_fault (hs _ _ hb).2 f)

end Resolution

end VersionedTypes
