import VersionedTypes.Proofs.Resolution.Records

/-!
# Where the published domains come from

A domain that is published is the first plain domain of its tag, or a permutation made it of a
domain that was published before it. Nothing is published under the tag of a plain domain but
that domain.

* `Grounded`: a list of entries of which each has its reason in the list or among those before it;
* `Step.grounded`, `Reachable.grounded`: so are the published domains, in order of publication;
* `HasReason`, `Grounded.hasReason`: the reason of one entry;
* **`published_domains_justified`**: every published domain is valid and has its reason.
-/

namespace VersionedTypes

namespace Resolution

open Declaration

variable {ds : List Declaration} {k k' : Config} {s : Resolution} {c : Declaration} {o : Outcome}
  {d : Domain} {tag : String} {entries : List (String × Domain)}

/-- Every entry is the first plain domain of its tag, or it has the tag of no plain domain and a
permutation makes it of an entry in front of it. -/
inductive Grounded (ds : List Declaration) : List (String × Domain) → Prop
  | nil : Grounded ds []
  | plain {entries : List (String × Domain)} {d : Domain} (h : Grounded ds entries)
      (hd : (domains ds).find? (·.tag == d.tag) = some d) : Grounded ds (entries ++ [(d.tag, d)])
  | permuted {entries : List (String × Domain)} {p : Permutation} {base d : Domain}
      (h : Grounded ds entries) (hp : permutation p ∈ ds) (hn : ∀ d ∈ domains ds, d.tag ≠ p.tag)
      (hb : (p.base, base) ∈ entries) (hd : p.applyTo base = .ok d) :
    Grounded ds (entries ++ [(p.tag, d)])

theorem find?_domains_of_new {read rest : List Declaration}
    (h : ∀ d' ∈ domains read, d'.tag ≠ d.tag) :
    (domains (read ++ domain d :: rest)).find? (·.tag == d.tag) = some d := by
  have hr : (domains read).find? (·.tag == d.tag) = none := by
    rw [List.find?_eq_none]
    exact fun d' hd' => by simpa using h d' hd'
  rw [domains, List.filterMap_append, List.find?_append]
  change ((domains read).find? _).or _ = _
  rw [hr]
  simp [domain?]

theorem Step.grounded (hk : Reachable ds k) (hg : Grounded ds k.state.domains.entries)
    (h : Step ds k k') : Grounded ds k'.state.domains.entries := by
  cases h with
  | declare c cs s =>
    obtain ⟨read, rfl, hread⟩ := hk.accounted
    cases c with
    | domain d =>
      have he : Event s (domain d) (.declared (s.verdict d)) (s.declare (domain d)) := .declared d
      cases hv : (s.verdict d).published? with
      | none => exact he.domains_of_none hv ▸ hg
      | some d' =>
        obtain ⟨rfl, hs, -⟩ := eq_of_published?_verdict hv
        rw [he.entries_of_some hv]
        refine hg.plain (find?_domains_of_new fun d hd e => ?_)
        have hd : domain d ∈ s.decided := hread ▸ List.mem_map_of_mem hd
        have : s.isSettled d.tag = true := hk.isSettled_of_decided hd rfl
        rw [e, hs] at this
        cases this
    | permutation p => exact hg
    | transform r => exact hg
  | @derive p ps ws s s' h =>
    have hp : permutation p ∈ ds := hk.declared_of_applying List.mem_cons_self
    obtain ⟨o, ho, he⟩ := derive_event (hk.poised p List.mem_cons_self) h
    cases hd : o.published? with
    | none => exact he.domains_of_none hd ▸ hg
    | some d =>
      rw [he.entries_of_some hd]
      have hfree : s.isSettled p.tag = false := (he.published hd).2.2
      cases he with
      | derived hr hb ha =>
        obtain ⟨rfl, -, -⟩ := eq_of_published?_verdict hd
        refine hg.permuted hp (fun d hd e => ?_) (OrderedMap.get?_eq_some_iff.mp hb) ha
        have : s.isSettled d.tag = true :=
          hk.isSettled_of_decided (hk.domain_decided Nat.one_pos (mem_domains.mp hd)) rfl
        rw [e, hfree] at this
        cases this
      | _ => cases hd
  | strand l p ps s => exact hg
  | answer r rs s =>
    obtain ⟨o, ho, he⟩ := answer_event s r
    exact he.domains_of_none (Outcome.published?_of_stage (by omega)) ▸ hg
  | _ => exact hg

theorem Reachable.grounded (h : Reachable ds k) : Grounded ds k.state.domains.entries := by
  induction h with
  | refl => exact .nil
  | tail hk hstep ih => exact hstep.grounded hk ih

/-- The reason of the entry `(tag, d)`: it stands among the plain domains or in front of it. -/
def HasReason (ds : List Declaration) (entries : List (String × Domain)) (tag : String)
    (d : Domain) : Prop :=
  (domains ds).find? (·.tag == tag) = some d ∨
    (∀ d' ∈ domains ds, d'.tag ≠ tag) ∧ ∃ p base pre post, permutation p ∈ ds ∧ p.tag = tag ∧
      entries = pre ++ (tag, d) :: post ∧ (p.base, base) ∈ pre ∧ p.applyTo base = .ok d

theorem HasReason.append (h : HasReason ds entries tag d) (more : List (String × Domain)) :
    HasReason ds (entries ++ more) tag d := by
  refine h.imp_right fun ⟨hn, p, base, pre, post, hp, ht, he, hb⟩ => ?_
  exact ⟨hn, p, base, pre, post ++ more, hp, ht, by rw [he, List.append_assoc]; rfl, hb⟩

theorem Grounded.hasReason (h : Grounded ds entries) (hm : (tag, d) ∈ entries) :
    HasReason ds entries tag d := by
  induction h with
  | nil => cases hm
  | plain h hd ih =>
    rcases List.mem_append.mp hm with hm | hm
    · exact (ih hm).append _
    · cases List.mem_singleton.mp hm
      exact Or.inl hd
  | permuted h hp hn hb hd ih =>
    rcases List.mem_append.mp hm with hm | hm
    · exact (ih hm).append _
    · cases List.mem_singleton.mp hm
      exact Or.inr ⟨hn, _, _, _, [], hp, rfl, rfl, hb, hd⟩

/-- **Every published domain is justified.** It is valid and has the tag that it is published
under; it is the first plain domain of this tag, or no plain domain has this tag and a permutation
makes it of a domain published earlier, as found in the table of all published domains. -/
theorem published_domains_justified (ds : List Declaration) :
    ∃ s, ofDeclarations ds = .ok s ∧ ∀ tag d, (tag, d) ∈ s.domains.entries →
      d.tag = tag ∧ d.errors = [] ∧
        ((domains ds).find? (·.tag == tag) = some d ∨
          (∀ d' ∈ domains ds, d'.tag ≠ tag) ∧ ∃ p, permutation p ∈ ds ∧ p.tag = tag ∧
            (∃ pre post, s.domains.entries = pre ++ (tag, d) :: post ∧
              p.base ∈ pre.map Prod.fst) ∧
            p.apply s.domains = .ok d) := by
  obtain ⟨s, hs, h⟩ := exists_reachable ds
  refine ⟨s, hs, fun tag d hm => ?_⟩
  obtain ⟨ht, he⟩ := h.sound tag d (OrderedMap.get?_eq_some_iff.mpr hm)
  refine ⟨ht, he, (h.grounded.hasReason hm).imp_right ?_⟩
  rintro ⟨hn, p, base, pre, post, hp, hpt, hes, hb, hd⟩
  have hbase : s.domains.get? p.base = some base := by
    rw [OrderedMap.get?_eq_some_iff, hes]
    exact List.mem_append_left _ hb
  refine ⟨hn, p, hp, hpt, ⟨pre, post, hes, List.mem_map_of_mem hb⟩, ?_⟩
  rw [Permutation.apply_of_get? hbase, hd]

end Resolution

end VersionedTypes
