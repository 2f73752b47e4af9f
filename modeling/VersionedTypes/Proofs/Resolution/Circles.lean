import Mathlib.Logic.Relation
import VersionedTypes.Proofs.Resolution.Links
import VersionedTypes.Proofs.Resolution.Records

/-!
# Permutations without a foundation

A permutation is hopeless when no declaration has the tag of its base, or when it is one of a
circle of permutations. If no tag is declared twice, these are the permutations that the resolution
finds unfounded: the fate of a tag on a circle stays open until nothing more can be published, and
then all the links of the circle are among those that are searched.

* `Declaration.tags`: the tags that a list declares;
* `LinkedTo`, `OnCircle`, `Hopeless`: what the declarations alone say;
* `Reachable.unsettled_of_onCircle`: no tag on a circle is settled by an application;
* `isUnfounded_links_iff`: the search among the permutations that wait finds the hopeless ones;
* **`Reachable.unfounded_iff`**: so the outcomes tell the hopeless permutations from the others.
-/

namespace VersionedTypes

namespace Declaration

variable {ds : List Declaration} {c c' : Declaration} {tag : String}

/-- The tags of the domains that a list declares. -/
def tags (ds : List Declaration) : List String :=
  (domains ds).map Domain.tag ++ (permutations ds).map Permutation.tag

theorem tags_eq (ds : List Declaration) : tags ds = (definitions ds).map name := by
  rw [tags, definitions, List.map_append, List.map_map, List.map_map]
  rfl

theorem mem_tags : tag ∈ tags ds ↔ ∃ c ∈ definitions ds, c.name = tag := by
  rw [tags_eq, List.mem_map]

theorem name_mem_tags (hc : c ∈ ds) (hq : c.request? = none) : c.name ∈ tags ds :=
  mem_tags.mpr ⟨c, mem_definitions.mpr ⟨hc, hq⟩, rfl⟩

theorem eq_of_name_eq (hn : (tags ds).Nodup) (hc : c ∈ definitions ds) (hc' : c' ∈ definitions ds)
    (h : c.name = c'.name) : c = c' :=
  List.inj_on_of_nodup_map (tags_eq ds ▸ hn) hc hc' h

end Declaration

namespace Resolution

open Declaration Relation

variable {ds : List Declaration} {k k' : Config} {s s' : Resolution} {c : Declaration} {o : Outcome}
  {p q : Permutation} {ws : List Permutation} {tag a b : String}

/-! ## What the declarations say -/

/-- A permutation of the list makes `a` of `b`. -/
def LinkedTo (ds : List Declaration) (a b : String) : Prop :=
  ∃ p, permutation p ∈ ds ∧ p.tag = a ∧ p.base = b

/-- Following the links from `tag` leads back to it. -/
def OnCircle (ds : List Declaration) (tag : String) : Prop := TransGen (LinkedTo ds) tag tag

/-- The base of `p` is not declared, or `p` is one of a circle of permutations. -/
def Hopeless (ds : List Declaration) (p : Permutation) : Prop :=
  p.base ∉ tags ds ∨ OnCircle ds p.tag

theorem OnCircle.exists_permutation (h : OnCircle ds tag) :
    ∃ p, permutation p ∈ ds ∧ p.tag = tag := by
  obtain ⟨b, ⟨p, hp, ht, -⟩, -⟩ := TransGen.head'_iff.mp h
  exact ⟨p, hp, ht⟩

theorem eq_of_tag_eq (hn : (tags ds).Nodup) (hp : permutation p ∈ ds) (hq : permutation q ∈ ds)
    (h : p.tag = q.tag) : p = q := by
  have := eq_of_name_eq hn (mem_definitions.mpr ⟨hp, rfl⟩) (mem_definitions.mpr ⟨hq, rfl⟩) h
  cases this
  rfl

theorem OnCircle.base (hn : (tags ds).Nodup) (hp : permutation p ∈ ds) (h : OnCircle ds p.tag) :
    OnCircle ds p.base := by
  obtain ⟨b, ⟨q, hq, ht, rfl⟩, hb⟩ := TransGen.head'_iff.mp h
  obtain rfl := eq_of_tag_eq hn hq hp ht
  exact TransGen.tail' hb ⟨q, hp, rfl, rfl⟩

/-! ## Circles stay open -/

theorem Reachable.mem_tags_of_isSettled (h : Reachable ds k) (ht : k.state.isSettled tag = true) :
    tag ∈ tags ds := by
  obtain ⟨⟨c, o⟩, hr, rfl⟩ := h.isSettled_iff_exists.mp ht
  obtain ⟨hr, ho, hc⟩ := mem_plainRecords.mp hr
  have hd := h.mem_of_decided (mem_decided.mpr ⟨o, hr, ho⟩)
  exact name_mem_tags hd hc

theorem Event.isSettled_cases (h : Event s c o s') (ht : s'.isSettled tag = true) :
    s.isSettled tag = true ∨ o ≠ .deferred ∧ tag = c.name := by
  rcases isSettled_iff.mp ht with ht | ht
  · obtain ⟨d, hd⟩ := isPublished_iff.mp ht
    rcases h.get?_eq_some_iff.mp hd with hd | ⟨ho, rfl⟩
    · exact Or.inl (isSettled_iff.mpr (Or.inl (isPublished_of_get? hd)))
    · refine Or.inr ⟨?_, rfl⟩
      rintro rfl
      cases ho
  · rcases h.isRejected_iff.mp ht with ht | ⟨ho, rfl⟩
    · exact Or.inl (isSettled_iff.mpr (Or.inr ht))
    · refine Or.inr ⟨?_, rfl⟩
      rintro rfl
      cases ho

theorem Event.isSettled_base (h : Event s (permutation p) o s') (ho : o.stage ≤ 1)
    (hd : o ≠ .deferred) : s.isSettled p.base = true := by
  cases h with
  | deferred => exact absurd rfl hd
  | derived _ hb => exact isSettled_iff.mpr (Or.inl (isPublished_of_get? hb))
  | refused _ hb => exact isSettled_iff.mpr (Or.inl (isPublished_of_get? hb))
  | skipped hr => exact isSettled_iff.mpr (Or.inr hr)
  | unfounded | stranded => exact absurd ho (show ¬ 2 ≤ 1 by decide)

theorem Event.request?_eq_none (h : Event s c o s') (ho : o.stage < 3) (hd : o ≠ .deferred) :
    c.request? = none := by
  cases h with
  | deferred => exact absurd rfl hd
  | answered | undefined => exact absurd ho (Nat.lt_irrefl 3)
  | _ => rfl

theorem Event.stage_pos (h : Event s (permutation p) o s') (hd : o ≠ .deferred) : 0 < o.stage := by
  cases h with
  | deferred => exact absurd rfl hd
  | _ => exact Nat.succ_pos _

/-- The fate of a tag on a circle stays open in the rounds: the first of the circle to be decided
would have a base on the circle that was decided before. -/
theorem Reachable.unsettled_of_onCircle (hn : (tags ds).Nodup) (h : Reachable ds k)
    (hk : k.stage ≤ 1) (ht : OnCircle ds tag) : k.state.isSettled tag = false := by
  induction h generalizing tag with
  | refl => rfl
  | @tail k k' hr hstep ih =>
    have hk := hstep.stage_le.trans hk
    have ih : ∀ tag, OnCircle ds tag → k.state.isSettled tag = false := fun _ => ih hk
    rcases Reachable.event hr hstep with e | ⟨c, o, ho, he⟩
    · exact e ▸ ih _ ht
    · rw [← Bool.not_eq_true]
      intro hs
      rcases he.isSettled_cases hs with hs | ⟨hd, rfl⟩
      · rw [ih _ ht] at hs; cases hs
      -- the event decides the permutation of the tag, whose base is on the circle, too
      · obtain ⟨p, hp, e⟩ := ht.exists_permutation
        have hc : c ∈ k'.state.decided := by rw [he.decided, if_neg hd]; simp
        have hc := Reachable.mem_of_decided (hr.tail hstep) hc
        have hq := he.request?_eq_none (by omega) hd
        obtain rfl : permutation p = c :=
          eq_of_name_eq hn (mem_definitions.mpr ⟨hp, rfl⟩) (mem_definitions.mpr ⟨hc, hq⟩) e
        have hs := he.isSettled_base (by omega) hd
        rw [ih _ (ht.base hn hp)] at hs
        cases hs

/-! ## The search finds the hopeless permutations -/

theorem Reachable.mem_waiting (h : Reachable ds ⟨.applying [] ws, s⟩) (hp : permutation p ∈ ds)
    (hs : s.isSettled p.tag = false) : p ∈ ws := by
  have hm := h.accounted.mem_iff.mpr (mem_definitions.mpr ⟨hp, rfl⟩)
  rcases List.mem_append.mp hm with hm | hm
  · have : s.isSettled p.tag = true := h.isSettled_of_decided hm rfl
    rw [hs] at this
    cases this
  · obtain ⟨q, hq, e⟩ := List.mem_map.mp hm
    cases e
    exact hq

/-- A declared tag whose fate is open after a round is that of a permutation that waits. -/
theorem Reachable.exists_waiting (h : Reachable ds ⟨.applying [] ws, s⟩) (ht : tag ∈ tags ds)
    (hs : s.isSettled tag = false) : ∃ q ∈ ws, q.tag = tag := by
  obtain ⟨c, hc, rfl⟩ := mem_tags.mp ht
  obtain ⟨hc, hq⟩ := mem_definitions.mp hc
  cases c with
  | domain d =>
    have : s.isSettled d.tag = true :=
      h.isSettled_of_decided (h.domain_decided Nat.one_pos hc) rfl
    exact absurd this (by rw [show s.isSettled d.tag = false from hs]; exact Bool.false_ne_true)
  | permutation p => exact ⟨p, h.mem_waiting hc hs, rfl⟩
  | transform r => cases hq

theorem Reachable.nodup_waiting (hn : (tags ds).Nodup) (h : Reachable ds ⟨.applying [] ws, s⟩) :
    (ws.map Permutation.tag).Nodup := by
  have hp := h.accounted.map name
  rw [← tags_eq, List.map_append, List.map_map] at hp
  exact (List.nodup_append.mp (hp.nodup_iff.mpr hn)).2.1

/-- When no permutation is ready, the links that lead on from an open tag are among those of the
permutations that wait, and lead to open tags. -/
theorem Reachable.transGen_next (hn : (tags ds).Nodup) (h : Reachable ds ⟨.applying [] ws, s⟩)
    (hw : (s.ready ws).isEmpty = true) (ha : s.isSettled a = false)
    (hab : TransGen (LinkedTo ds) a b) :
    TransGen (Next (links ws)) a b ∧ s.isSettled b = false := by
  have hnext : ∀ {a b}, s.isSettled a = false → LinkedTo ds a b →
      Next (links ws) a b ∧ s.isSettled b = false := by
    rintro _ _ ha ⟨p, hp, rfl, rfl⟩
    have hp := h.mem_waiting hp ha
    refine ⟨OrderedMap.get?_ofList_of_nodup ?_ (List.mem_map_of_mem hp),
      ready_isEmpty_iff.mp hw p hp⟩
    rw [List.map_map]
    exact h.nodup_waiting hn
  induction hab with
  | single hab => exact ⟨.single (hnext ha hab).1, (hnext ha hab).2⟩
  | tail _ hbc ih => exact ⟨ih.1.tail (hnext ih.2 hbc).1, (hnext ih.2 hbc).2⟩

/-- **The search finds the hopeless permutations** among those that wait in vain. -/
theorem isUnfounded_links_iff (hn : (tags ds).Nodup) (h : Reachable ds ⟨.applying [] ws, s⟩)
    (hw : (s.ready ws).isEmpty = true) (hp : p ∈ ws) :
    isUnfounded (links ws) p = true ↔ Hopeless ds p := by
  have hds : ∀ q ∈ ws, permutation q ∈ ds := fun q hq => h.declared_of_applying hq
  rw [isUnfounded_iff, Hopeless]
  refine or_congr ⟨fun hno ht => ?_, fun hno q hq e => ?_⟩ ⟨fun hc => ?_, fun hc => ?_⟩
  · obtain ⟨q, hq, e⟩ := h.exists_waiting ht (ready_isEmpty_iff.mp hw p hp)
    exact hno q hq e
  · exact hno (mem_tags.mpr ⟨permutation q, mem_definitions.mpr ⟨hds q hq, rfl⟩, e⟩)
  · refine TransGen.mono (fun a b hab => ?_) _ _ hc
    obtain ⟨q, hq, ha, hb⟩ := exists_of_next_links hab
    exact ⟨q, hds q hq, ha, hb⟩
  · exact (h.transGen_next hn hw (h.unsettled_of_onCircle hn (Nat.le_refl 1) hc) hc).1

/-- The permutations that are stranded are of those that waited when none was ready, and the links
are those among them all. -/
def Config.Stuck (ds : List Declaration) : Config → Prop
  | ⟨.stranding l rest, _⟩ => ∃ ws s, Reachable ds ⟨.applying [] ws, s⟩ ∧
    (s.ready ws).isEmpty = true ∧ l = links ws ∧ ∀ p ∈ rest, p ∈ ws
  | _ => True

theorem Reachable.stuck (h : Reachable ds k) : k.Stuck ds := by
  induction h with
  | refl => trivial
  | tail hr hstep ih =>
    cases hstep with
    | @stuck ws s hw => exact ⟨ws, s, hr, hw, rfl, fun _ hp => hp⟩
    | strand l p ps s =>
      obtain ⟨ws, s₀, h₀, hw, hl, hps⟩ := ih
      exact ⟨ws, s₀, h₀, hw, hl, fun q hq => hps q (List.mem_cons_of_mem _ hq)⟩
    | _ => trivial

/-! ## The outcomes tell the hopeless permutations -/

/-- A permutation that is decided in the rounds is not hopeless. -/
theorem Event.not_hopeless (hn : (tags ds).Nodup) (hk : Reachable ds k)
    (h : Event k.state (permutation p) o s') (hp : permutation p ∈ ds) (ho : o.stage = k.stage)
    (hk' : k.stage = 1) : ¬ Hopeless ds p := by
  have hs := h.isSettled_base (by omega) fun e => by rw [e, hk'] at ho; cases ho
  rintro (hb | hc)
  · exact hb (hk.mem_tags_of_isSettled hs)
  · rw [hk.unsettled_of_onCircle hn (by omega) (hc.base hn hp)] at hs
    cases hs

/-- The record tells whether the permutation is hopeless. -/
def Tells (ds : List Declaration) (r : Record) : Prop :=
  ∀ p, r.declaration = permutation p → r.outcome ≠ .deferred →
    (r.outcome = .unfounded p.missingBase ↔ Hopeless ds p)

theorem Event.forall_records {P : Record → Prop} (h : Event s c o s') (hs : ∀ r ∈ s.records, P r)
    (hr : P ⟨c, o⟩) : ∀ r ∈ s'.records, P r := by
  rw [h.records]
  exact List.forall_mem_append.mpr ⟨hs, List.forall_mem_singleton.mpr hr⟩

theorem Step.tells (hn : (tags ds).Nodup) (hk : Reachable ds k)
    (ht : ∀ r ∈ k.state.records, Tells ds r) (h : Step ds k k') :
    ∀ r ∈ k'.state.records, Tells ds r := by
  cases h with
  | declare c cs s =>
    obtain ⟨o, ho, he⟩ := declare_event s c
    refine he.forall_records ht fun p e hd => ?_
    obtain rfl : c = permutation p := e
    exact absurd (he.stage_pos hd) (ho ▸ Nat.lt_irrefl 0)
  | @derive p ps ws s s' h =>
    obtain ⟨o, ho, he⟩ := derive_event (hk.poised p List.mem_cons_self) h
    refine he.forall_records ht fun q e _ => ?_
    cases e
    have hp : permutation p ∈ ds := hk.declared_of_applying List.mem_cons_self
    refine iff_of_false ?_ (he.not_hopeless hn hk hp ho rfl)
    rintro (rfl : o = _)
    cases ho
  | strand l p ps s =>
    obtain ⟨ws, s₀, h₀, hw, rfl, hps⟩ := hk.stuck
    have hu := isUnfounded_links_iff hn h₀ hw (hps p List.mem_cons_self)
    refine List.forall_mem_append.mpr ⟨ht, List.forall_mem_singleton.mpr fun q e _ => ?_⟩
    cases e
    by_cases hp : isUnfounded (links ws) p = true
    · exact iff_of_true (if_pos hp) (hu.mp hp)
    · refine iff_of_false ?_ fun hh => hp (hu.mpr hh)
      rw [if_neg hp]
      exact nofun
  | answer r rs s =>
    obtain ⟨o, ho, he⟩ := answer_event s r
    exact he.forall_records ht fun p e => by cases e
  | _ => exact ht

/-- **The outcomes tell the hopeless permutations**: they are the ones found to be unfounded. -/
theorem Reachable.unfounded_iff (hn : (tags ds).Nodup) (h : Reachable ds k)
    (hr : ⟨permutation p, o⟩ ∈ k.state.records) (ho : o ≠ .deferred) :
    o = .unfounded p.missingBase ↔ Hopeless ds p := by
  have : ∀ r ∈ k.state.records, Tells ds r := by
    clear hr
    induction h with
    | refl => exact fun _ hr => absurd hr List.not_mem_nil
    | tail hr hstep ih => exact hstep.tells hn hr ih
  exact this _ hr p rfl ho

end Resolution

end VersionedTypes
