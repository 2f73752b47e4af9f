import VersionedTypes.Proofs.Resolution.Provenance
import VersionedTypes.Proofs.Resolution.Requests

/-!
# Resolution without an order of work

If no tag is declared twice, what is published, answered and reported can be read off the
declarations as a set. The published domains are those that can be derived: valid plain domains, and
valid results of permutations of derivable domains. The mistakes in a permutation depend on its base
alone. So a list and any reordering of it come to the same.

* `Derivable`, **`Reachable.get?_iff_derivable`**: the published domains as a least fixed point;
* `Permutation.mistakesOn`, `Fate.unique`: the mistakes in a permutation of a given base;
* `Reachable.reports_congr`: what two resolutions report of one declaration;
* **`resolution_of_reordering`**: a reordered list comes to the same.
-/

namespace VersionedTypes

/-- The mistakes of a permutation that is applied to `base`. -/
def Permutation.mistakesOn (p : Permutation) (base : Domain) : List Diagnostic :=
  match p.applyTo base with
  | .ok d => d.errors.map Diagnostic.validation
  | .error (.illegal e) => [.permutation e]
  | .error (.fault _) => []

namespace Resolution

open Declaration Relation

variable {ds ds' : List Declaration} {s s' : Resolution} {c : Declaration} {p : Permutation}
  {d : Domain} {tag : String} {ms ms' : List Diagnostic}

/-! ## Derivable domains -/

/-- The domains that the declarations give, whatever their order: the valid plain ones, and the
valid results of permutations of such domains. -/
inductive Derivable (ds : List Declaration) : String → Domain → Prop
  | plain {d : Domain} (hd : domain d ∈ ds) (he : d.errors = []) : Derivable ds d.tag d
  | permuted {p : Permutation} {base d : Domain} (hp : permutation p ∈ ds)
      (hb : Derivable ds p.base base) (ha : p.applyTo base = .ok d) (he : d.errors = []) :
    Derivable ds p.tag d

theorem Derivable.mono (hds : ∀ c ∈ ds, c ∈ ds') (h : Derivable ds tag d) :
    Derivable ds' tag d := by
  induction h with
  | plain hd he => exact .plain (hds _ hd) he
  | permuted hp _ ha he ih => exact .permuted (hds _ hp) ih ha he

theorem Grounded.derivable {entries : List (String × Domain)} (h : Grounded ds entries)
    (he : ∀ e ∈ entries, e.2.errors = []) (hm : (tag, d) ∈ entries) : Derivable ds tag d := by
  induction h generalizing tag d with
  | nil => cases hm
  | plain _ hd ih =>
    obtain ⟨he, hlast⟩ := List.forall_mem_append.mp he
    rcases List.mem_append.mp hm with hm | hm
    · exact ih he hm
    · cases List.mem_singleton.mp hm
      exact .plain (mem_domains.mp (List.mem_of_find?_eq_some hd))
        (hlast _ (List.mem_singleton_self _))
  | permuted _ hp _ hb ha ih =>
    obtain ⟨he, hlast⟩ := List.forall_mem_append.mp he
    rcases List.mem_append.mp hm with hm | hm
    · exact ih he hm
    · cases List.mem_singleton.mp hm
      exact .permuted hp (ih he hb) ha (hlast _ (List.mem_singleton_self _))

/-- **The published domains are the derivable ones.** -/
theorem Reachable.get?_iff_derivable (hn : (tags ds).Nodup)
    (h : Reachable ds ⟨.answering [], s⟩) :
    s.domains.get? tag = some d ↔ Derivable ds tag d := by
  constructor
  · intro hd
    refine h.grounded.derivable (fun e he => ?_) (OrderedMap.get?_eq_some_iff.mp hd)
    exact (h.sound e.1 e.2 (OrderedMap.get?_eq_some_iff.mpr he)).2
  · intro hd
    induction hd with
    | plain hd he => rw [(h.get?_domain hn hd).1, if_pos he]
    | permuted hp _ ha he ih =>
      exact (h.fate hn hp).get?_eq_some_iff.mpr
        ⟨isPublished_of_get? ih, (Permutation.apply_of_get? ih).trans ha, he⟩

/-! ## Mistakes -/

namespace Fate

theorem eq_mistakesOn {base : Domain} (h : Fate ds s p ms) (hh : ¬ Hopeless ds p)
    (hb : s.domains.get? p.base = some base) : ms = p.mistakesOn base := by
  have hbase : s.isPublished p.base = true := isPublished_of_get? hb
  unfold Permutation.mistakesOn
  rw [← Permutation.apply_of_get? hb]
  cases h with
  | published _ _ ha he => rw [ha]; simp [he]
  | invalid _ _ ha => rw [ha]
  | refused _ _ ha => rw [ha]
  | unreached _ hb' => rw [hbase] at hb'; cases hb'
  | hopeless hh' => exact absurd hh' hh

/-- **The mistakes in a permutation** depend on its base, and on whether there is hope for it. -/
theorem unique (h : Fate ds s p ms) (h' : Fate ds' s' p ms')
    (hh : Hopeless ds p ↔ Hopeless ds' p)
    (hb : s.domains.get? p.base = s'.domains.get? p.base) : ms = ms' := by
  by_cases hp : Hopeless ds p
  · rw [(h.of_hopeless hp).2, (h'.of_hopeless (hh.mp hp)).2]
  have hp' : ¬ Hopeless ds' p := mt hh.mpr hp
  cases hbase : s.domains.get? p.base with
  | none =>
    have hbase' : s'.domains.get? p.base = none := hb ▸ hbase
    rw [h.eq_nil_of_not_hopeless (isPublished_eq_false_iff.mpr hbase) hp,
      h'.eq_nil_of_not_hopeless (isPublished_eq_false_iff.mpr hbase') hp']
  | some base => rw [h.eq_mistakesOn hp hbase, h'.eq_mistakesOn hp' (hb ▸ hbase)]

end Fate

/-- Two resolutions report the same of a declaration that both lists have, if they agree on the base
of it. -/
theorem Reachable.reports_congr (hn : (tags ds).Nodup) (hn' : (tags ds').Nodup)
    (h : Reachable ds ⟨.answering [], s⟩) (h' : Reachable ds' ⟨.answering [], s'⟩)
    (hc : c ∈ definitions ds) (hc' : c ∈ definitions ds')
    (hp : ∀ p, c = permutation p → (Hopeless ds p ↔ Hopeless ds' p) ∧
      s.domains.get? p.base = s'.domains.get? p.base) :
    s.reports c = s'.reports c := by
  obtain ⟨hc, hq⟩ := mem_definitions.mp hc
  obtain ⟨hc', -⟩ := mem_definitions.mp hc'
  cases c with
  | domain d => rw [(h.get?_domain hn hc).2, (h'.get?_domain hn' hc').2]
  | permutation p =>
    obtain ⟨hh, hb⟩ := hp p rfl
    exact (h.fate hn hc).unique (h'.fate hn' hc') hh hb
  | transform r => cases hq

theorem Reachable.diagnostics_perm_reports (hn : (tags ds).Nodup)
    (h : Reachable ds ⟨.answering [], s⟩) :
    s.diagnostics.Perm
      ((definitions ds).flatMap s.reports ++ (requests ds).flatMap (undeclaredEnds ds)) :=
  h.requestReports_eq ▸ h.diagnostics_perm hn

theorem answer?_congr {r : TransformRequest} {m m' : DomainMap}
    (hs : m.get? r.source = m'.get? r.source)
    (hd : m.get? r.destination = m'.get? r.destination) : r.answer? m = r.answer? m' := by
  unfold TransformRequest.answer?
  rw [hs, hd]

theorem undeclaredEnds_congr {r : TransformRequest}
    (h : ∀ tag ∈ endpoints r, tag ∈ tags ds ↔ tag ∈ tags ds') :
    undeclaredEnds ds r = undeclaredEnds ds' r := by
  unfold undeclaredEnds
  rw [List.filter_congr fun tag ht => decide_eq_decide.mpr (not_congr (h tag ht))]

/-! ## Reordered lists -/

theorem hopeless_of_perm (hp : ds.Perm ds') : Hopeless ds p ↔ Hopeless ds' p := by
  have hlinks : LinkedTo ds = LinkedTo ds' := by
    funext a b
    unfold LinkedTo
    simp only [hp.mem_iff]
  have htags : p.base ∈ tags ds ↔ p.base ∈ tags ds' := by
    simp only [mem_tags, mem_definitions, hp.mem_iff]
  unfold Hopeless OnCircle
  rw [hlinks, htags]

theorem definitions_perm (hp : ds.Perm ds') : (definitions ds).Perm (definitions ds') :=
  (filter_perm_definitions ds).symm.trans
    ((hp.filter _).trans (filter_perm_definitions ds'))

/-- **A reordered list comes to the same.** If no tag is declared twice, a list and a reordering of
it publish the same domains under the same tags, and they come to the same transforms and the same
mistakes, in some order. -/
theorem resolution_of_reordering (hn : (tags ds).Nodup) (hp : ds.Perm ds') :
    ∃ s s', ofDeclarations ds = .ok s ∧ ofDeclarations ds' = .ok s' ∧
      (∀ tag, s.domains.get? tag = s'.domains.get? tag) ∧
      s.domains.entries.Perm s'.domains.entries ∧
      s.transforms.Perm s'.transforms ∧ s.diagnostics.Perm s'.diagnostics := by
  obtain ⟨s, hs, h⟩ := exists_reachable ds
  obtain ⟨s', hs', h'⟩ := exists_reachable ds'
  have hdefinitions : (definitions ds).Perm (definitions ds') := definitions_perm hp
  have htags : (tags ds).Perm (tags ds') := by
    rw [tags_eq, tags_eq]
    exact hdefinitions.map name
  have hn' : (tags ds').Nodup := htags.nodup_iff.mp hn
  have hrequests : (requests ds).Perm (requests ds') := hp.filterMap _
  have hget : ∀ tag, s.domains.get? tag = s'.domains.get? tag := by
    intro tag
    ext d
    rw [h.get?_iff_derivable hn, h'.get?_iff_derivable hn']
    exact ⟨.mono fun _ => hp.mem_iff.mp, .mono fun _ => hp.mem_iff.mpr⟩
  refine ⟨s, s', hs, hs', hget, ?_, ?_, ?_⟩
  · rw [List.perm_ext_iff_of_nodup (.of_map _ s.domains.nodup) (.of_map _ s'.domains.nodup)]
    rintro ⟨tag, d⟩
    rw [← OrderedMap.get?_eq_some_iff, ← OrderedMap.get?_eq_some_iff, hget]
  · rw [h.transforms_eq, h'.transforms_eq]
    rw [List.filterMap_congr fun r _ => answer?_congr (hget r.source) (hget r.destination)]
    exact hrequests.filterMap _
  · have hreports : (definitions ds).flatMap s.reports = (definitions ds).flatMap s'.reports :=
      List.flatMap_congr fun c hc => h.reports_congr hn hn' h' hc (hdefinitions.mem_iff.mp hc)
        fun p _ => ⟨hopeless_of_perm hp, hget p.base⟩
    have hends : (requests ds).flatMap (undeclaredEnds ds) =
        (requests ds).flatMap (undeclaredEnds ds') :=
      List.flatMap_congr fun r _ => undeclaredEnds_congr fun _ _ => htags.mem_iff
    refine (h.diagnostics_perm_reports hn).trans ?_
    rw [hreports, hends]
    refine List.Perm.trans ?_ (h'.diagnostics_perm_reports hn').symm
    exact (hdefinitions.flatMap_right _).append (hrequests.flatMap_right _)

/-- Versions in any order, two of them without a foundation, and a request that fails. The same is
published, computed and reported, each in another order. -/
theorem resolution_of_reversed_versions :
    let ds := [permutation { tag := "v2", base := "v1" },
      transform ⟨"up", "v1", "v2", Origin.blank⟩,
      domain { tag := "v1" }, permutation { tag := "v4", base := "v3" },
      transform ⟨"down", "v2", "v0", Origin.blank⟩, domain { tag := "w1" },
      permutation { tag := "w4", base := "w3" }, transform ⟨"back", "v2", "v1", Origin.blank⟩]
    let v4 : Diagnostic := .permutation ⟨.nonexistentBase "v4" "v3", Origin.blank⟩
    let w4 : Diagnostic := .permutation ⟨.nonexistentBase "w4" "w3", Origin.blank⟩
    let down : Diagnostic := .validation ⟨.undefinedDomain "down" "v0", Origin.blank⟩
    (tags ds).Nodup ∧ ds.Perm ds.reverse ∧
      ∃ s s', ofDeclarations ds = .ok s ∧ ofDeclarations ds.reverse = .ok s' ∧
        (∀ tag, s.domains.get? tag = s'.domains.get? tag) ∧
        s.domains.entries.Perm s'.domains.entries ∧
        s.transforms.Perm s'.transforms ∧ s.diagnostics.Perm s'.diagnostics ∧
        s.domains.keys = ["v1", "w1", "v2"] ∧ s'.domains.keys = ["w1", "v1", "v2"] ∧
        s.transforms.map Transform.name = ["up", "back"] ∧
        s'.transforms.map Transform.name = ["back", "up"] ∧
        s.diagnostics = [v4, w4, down] ∧ s'.diagnostics = [w4, v4, down] := by
  intro ds v4 w4 down
  have hn : (tags ds).Nodup := by decide
  have hp : ds.Perm ds.reverse := ds.reverse_perm.symm
  have hv : (ofDeclarations ds).map
      (fun s => (s.domains.keys, s.transforms.map Transform.name, s.diagnostics)) =
        .ok (["v1", "w1", "v2"], ["up", "back"], [v4, w4, down]) := by
    decide +kernel
  have hv' : (ofDeclarations ds.reverse).map
      (fun s => (s.domains.keys, s.transforms.map Transform.name, s.diagnostics)) =
        .ok (["w1", "v1", "v2"], ["back", "up"], [w4, v4, down]) := by
    decide +kernel
  obtain ⟨s, s', hs, hs', hget, hentries, htransforms, hdiagnostics⟩ :=
    resolution_of_reordering hn hp
  rw [hs] at hv
  rw [hs'] at hv'
  obtain ⟨hkeys, hnames, hd⟩ := by simpa only [Prod.mk.injEq] using Except.ok.inj hv
  obtain ⟨hkeys', hnames', hd'⟩ := by simpa only [Prod.mk.injEq] using Except.ok.inj hv'
  exact ⟨hn, hp, s, s', hs, hs', hget, hentries, htransforms, hdiagnostics, hkeys, hkeys', hnames,
    hnames', hd, hd'⟩

end Resolution

end VersionedTypes
