import VersionedTypes.Proofs.Permutation.Origins
import VersionedTypes.Proofs.Resolution.Machine

/-!
# Resolutions with other origins

A resolution takes origins along and decides nothing by them. Every step of the machine is also a
step when all origins are replaced, so declaration lists that differ in their origins only come to
the same domains, transforms and mistakes, but for the origins.

* `Declaration.mapOrigins`, `Outcome.mapOrigins`, `Resolution.mapOrigins`: replacing the origins of
  declarations, and of all that becomes of them;
* `Resolution.publish_mapOrigins`, `Resolution.derive_mapOrigins`, `Resolution.answer_mapOrigins`:
  the parts of a resolution;
* **`Step.mapOrigins`**, `Reachable.mapOrigins`: one step, and a run;
* **`ofDeclarations_mapOrigins`**: the whole resolution;
* **`resolution_up_to_origins`**: what lists with the same bare declarations come to.
-/

namespace VersionedTypes

section Definitions

variable (f : Origin → Origin)

/-- The request with another origin. -/
def TransformRequest.mapOrigin (r : TransformRequest) : TransformRequest :=
  { r with origin := f r.origin }

/-- The transform with other origins, also in its delta. -/
def Transform.mapOrigins (t : Transform) : Transform :=
  { t with delta := t.delta.mapOrigins f, origin := f t.origin }

/-- The declaration with other origins throughout. -/
def Declaration.mapOrigins : Declaration → Declaration
  | .domain d => .domain (d.mapOrigins f)
  | .permutation p => .permutation (p.mapOrigins f)
  | .transform r => .transform (r.mapOrigin f)

/-- The same mistake at another place. -/
def Diagnostic.mapOrigin : Diagnostic → Diagnostic
  | .permutation e => .permutation (e.mapOrigin f)
  | .validation e => .validation (e.mapOrigin f)

/-- The same verdict on a domain with other origins. -/
def Verdict.mapOrigins : Verdict → Verdict
  | .published d => .published (d.mapOrigins f)
  | .duplicate d => .duplicate (d.mapOrigins f)
  | .invalid d errors => .invalid (d.mapOrigins f) (errors.map (ValidationError.mapOrigin f))

/-- The same outcome for a declaration with other origins. -/
def Outcome.mapOrigins : Outcome → Outcome
  | .deferred => .deferred
  | .declared v => .declared (v.mapOrigins f)
  | .derived base v => .derived (base.mapOrigins f) (v.mapOrigins f)
  | .refused base? e => .refused (base?.map (Domain.mapOrigins f)) (e.mapOrigin f)
  | .skipped => .skipped
  | .unfounded e => .unfounded (e.mapOrigin f)
  | .stranded => .stranded
  | .answered a b => .answered (a.mapOrigins f) (b.mapOrigins f)
  | .undefined errors => .undefined (errors.map (ValidationError.mapOrigin f))

/-- The record of a declaration with other origins. -/
def Record.mapOrigins (r : Record) : Record :=
  ⟨r.declaration.mapOrigins f, r.outcome.mapOrigins f⟩

/-- The resolution with other origins in all that it holds. The tags of what was rejected have
none. -/
def Resolution.mapOrigins (s : Resolution) : Resolution where
  domains := s.domains.map (Domain.mapOrigins f)
  transforms := s.transforms.map (Transform.mapOrigins f)
  rejected := s.rejected
  records := s.records.map (Record.mapOrigins f)

end Definitions

/-- The declaration with blank origins throughout. -/
def Declaration.bare : Declaration → Declaration := Declaration.mapOrigins fun _ => Origin.blank

/-- The transform with blank origins throughout. -/
def Transform.bare : Transform → Transform := Transform.mapOrigins fun _ => Origin.blank

/-- The mistake alone, wherever it was found. -/
def Diagnostic.bare : Diagnostic → Diagnostic := Diagnostic.mapOrigin fun _ => Origin.blank

variable (f : Origin → Origin)

theorem TransformRequest.answer_mapOrigins (r : TransformRequest) (a b : Domain) :
    (r.mapOrigin f).answer (a.mapOrigins f) (b.mapOrigins f) = (r.answer a b).mapOrigins f := by
  unfold answer
  rw [Domain.delta_mapOrigins]
  rfl

namespace Declaration

theorem permutations_mapOrigins (ds : List Declaration) :
    permutations (ds.map (mapOrigins f)) = (permutations ds).map (Permutation.mapOrigins f) := by
  rw [permutations, permutations, List.filterMap_map, List.map_filterMap]
  exact List.filterMap_congr fun c _ => by cases c <;> rfl

theorem requests_mapOrigins (ds : List Declaration) :
    requests (ds.map (mapOrigins f)) = (requests ds).map (TransformRequest.mapOrigin f) := by
  rw [requests, requests, List.filterMap_map, List.map_filterMap]
  exact List.filterMap_congr fun c _ => by cases c <;> rfl

end Declaration

theorem Outcome.diagnostics_mapOrigins (o : Outcome) :
    (o.mapOrigins f).diagnostics = o.diagnostics.map (Diagnostic.mapOrigin f) := by
  have herrors : ∀ errors : List ValidationError,
      (errors.map (ValidationError.mapOrigin f)).map Diagnostic.validation =
        (errors.map Diagnostic.validation).map (Diagnostic.mapOrigin f) := fun errors => by
    rw [List.map_map, List.map_map]
    rfl
  cases o with
  | declared v | derived _ v =>
    cases v with
    | invalid d errors => exact herrors errors
    | _ => rfl
  | undefined errors => exact herrors errors
  | _ => rfl

namespace Resolution

open Relation

variable (s : Resolution)

theorem diagnostics_mapOrigins :
    (s.mapOrigins f).diagnostics = s.diagnostics.map (Diagnostic.mapOrigin f) := by
  rw [diagnostics, diagnostics, mapOrigins, List.flatMap_map, List.map_flatMap]
  exact List.flatMap_congr fun r _ => r.outcome.diagnostics_mapOrigins f

theorem record_mapOrigins (c : Declaration) (o : Outcome) :
    (s.mapOrigins f).record (c.mapOrigins f) (o.mapOrigins f) = (s.record c o).mapOrigins f := by
  have hrecords : (s.mapOrigins f).records ++ [Record.mk (c.mapOrigins f) (o.mapOrigins f)] =
      (s.records ++ [Record.mk c o]).map (Record.mapOrigins f) := by
    rw [List.map_append]
    rfl
  exact congrArg (fun rs => { s.mapOrigins f with records := rs }) hrecords

theorem get?_mapOrigins (tag : String) :
    (s.mapOrigins f).domains.get? tag = (s.domains.get? tag).map (Domain.mapOrigins f) :=
  OrderedMap.get?_map ..

theorem isSettled_mapOrigins (tag : String) : (s.mapOrigins f).isSettled tag = s.isSettled tag := by
  have hpublished : (s.mapOrigins f).isPublished tag = s.isPublished tag := by
    rw [isPublished, isPublished, ← OrderedMap.isSome_get?, ← OrderedMap.isSome_get?,
      get?_mapOrigins, Option.isSome_map]
  rw [isSettled, isSettled, hpublished]
  rfl

/-! ## Publication -/

theorem verdict_mapOrigins (d : Domain) :
    (s.mapOrigins f).verdict (d.mapOrigins f) = (s.verdict d).mapOrigins f := by
  unfold verdict
  rw [isSettled_mapOrigins, Domain.errors_mapOrigins, List.isEmpty_map]
  change (if s.isSettled d.tag then _ else _) = _
  split
  · rfl
  · split <;> rfl

theorem carryOut_mapOrigins (v : Verdict) :
    (s.mapOrigins f).carryOut (v.mapOrigins f) = (s.carryOut v).mapOrigins f := by
  cases v with
  | published d =>
    exact congrArg (fun m => { s.mapOrigins f with domains := m })
      (OrderedMap.insert_map (Domain.mapOrigins f) s.domains d.tag d)
  | _ => rfl

theorem publish_mapOrigins {o o' : Verdict → Outcome}
    (ho : ∀ v, o' (v.mapOrigins f) = (o v).mapOrigins f) (c : Declaration) (d : Domain) :
    (s.mapOrigins f).publish (c.mapOrigins f) o' (d.mapOrigins f) =
      (s.publish c o d).mapOrigins f := by
  unfold publish
  rw [verdict_mapOrigins, carryOut_mapOrigins, ho, record_mapOrigins]

theorem declare_mapOrigins (c : Declaration) :
    (s.mapOrigins f).declare (c.mapOrigins f) = (s.declare c).mapOrigins f := by
  cases c with
  | domain d => exact s.publish_mapOrigins f (fun _ => rfl) (.domain d) d
  | permutation p => exact s.record_mapOrigins f (.permutation p) .deferred
  | transform r => exact s.record_mapOrigins f (.transform r) .deferred

/-! ## Permutations -/

theorem derive_mapOrigins {s s' : Resolution} {p : Permutation} (h : s.derive p = .ok s') :
    (s.mapOrigins f).derive (p.mapOrigins f) = .ok (s'.mapOrigins f) := by
  have hrecord : ∀ o, ((s.mapOrigins f).reject p.tag).record (.permutation (p.mapOrigins f))
      (o.mapOrigins f) = ((s.reject p.tag).record (.permutation p) o).mapOrigins f :=
    (s.reject p.tag).record_mapOrigins f (.permutation p)
  -- is the base rejected, is it published, and can the permutation be applied to it?
  unfold derive at h
  split at h
  · next hr =>
    cases h
    have hr' : (s.mapOrigins f).isRejected (p.mapOrigins f).base = true := hr
    rw [derive, if_pos hr']
    exact congrArg Except.ok (hrecord .skipped)
  · next hr =>
    have hr' : ¬ (s.mapOrigins f).isRejected (p.mapOrigins f).base = true := hr
    have hget : (s.mapOrigins f).domains.get? (p.mapOrigins f).base =
        (s.domains.get? p.base).map (Domain.mapOrigins f) := s.get?_mapOrigins f p.base
    rw [derive, if_neg hr', hget]
    split at h
    · next hb =>
      cases h
      rw [hb]
      exact congrArg Except.ok (hrecord (.refused none p.missingBase))
    · next base hb =>
      have happly := p.applyTo_mapOrigins f base
      rw [hb]
      split at h
      · next d hd =>
        cases h
        rw [hd] at happly
        simp only [Option.map_some, happly, Except.map, Except.mapError]
        exact congrArg Except.ok (s.publish_mapOrigins f (fun _ => rfl) (.permutation p) d)
      · next e he =>
        cases h
        rw [he] at happly
        simp only [Option.map_some, happly, Except.map, Except.mapError, Failure.mapOrigins]
        exact congrArg Except.ok (hrecord (.refused (some base) e))
      · cases h

theorem links_mapOrigins (ps : List Permutation) :
    links (ps.map (Permutation.mapOrigins f)) = links ps := by
  rw [links, List.map_map]
  rfl

theorem ready_mapOrigins (ps : List Permutation) :
    (s.mapOrigins f).ready (ps.map (Permutation.mapOrigins f)) =
      (s.ready ps).map (Permutation.mapOrigins f) := by
  rw [ready, ready, List.filter_map]
  exact congrArg _ (List.filter_congr fun p _ => s.isSettled_mapOrigins f p.base)

theorem waiting_mapOrigins (ps : List Permutation) :
    (s.mapOrigins f).waiting (ps.map (Permutation.mapOrigins f)) =
      (s.waiting ps).map (Permutation.mapOrigins f) := by
  rw [waiting, waiting, List.filter_map]
  exact congrArg _ (List.filter_congr fun p _ => congrArg _ (s.isSettled_mapOrigins f p.base))

theorem strandOne_mapOrigins (l : OrderedMap String) (p : Permutation) :
    strandOne l (s.mapOrigins f) (p.mapOrigins f) = (strandOne l s p).mapOrigins f := by
  unfold strandOne
  rw [← record_mapOrigins]
  change Resolution.record _ _ (if isUnfounded l p then _ else _) = _
  split <;> rfl

/-! ## Requests -/

theorem openEnds_mapOrigins (r : TransformRequest) :
    (s.mapOrigins f).openEnds (r.mapOrigin f) =
      (s.openEnds r).map (ValidationError.mapOrigin f) := by
  unfold openEnds
  simp only [isSettled_mapOrigins, List.map_map]
  rfl

theorem answer_mapOrigins (r : TransformRequest) :
    (s.mapOrigins f).answer (r.mapOrigin f) = (s.answer r).mapOrigins f := by
  have hundefined : (s.mapOrigins f).record (.transform (r.mapOrigin f))
      (.undefined ((s.mapOrigins f).openEnds (r.mapOrigin f))) =
        (s.record (.transform r) (.undefined (s.openEnds r))).mapOrigins f := by
    rw [openEnds_mapOrigins]
    exact s.record_mapOrigins f (.transform r) (.undefined (s.openEnds r))
  have hsource : (s.mapOrigins f).domains.get? (r.mapOrigin f).source =
      (s.domains.get? r.source).map (Domain.mapOrigins f) := s.get?_mapOrigins f r.source
  have hdestination : (s.mapOrigins f).domains.get? (r.mapOrigin f).destination =
      (s.domains.get? r.destination).map (Domain.mapOrigins f) := s.get?_mapOrigins f r.destination
  cases ha : s.domains.get? r.source with
  | none =>
    rw [ha] at hsource
    rw [answer_of_unpublished (Or.inl ha), answer_of_unpublished (Or.inl hsource), hundefined]
  | some a =>
    rw [ha] at hsource
    cases hb : s.domains.get? r.destination with
    | none =>
      rw [hb] at hdestination
      rw [answer_of_unpublished (Or.inr hb), answer_of_unpublished (Or.inr hdestination),
        hundefined]
    | some b =>
      rw [hb] at hdestination
      have htransforms : (s.mapOrigins f).transforms ++
          [(r.mapOrigin f).answer (a.mapOrigins f) (b.mapOrigins f)] =
            (s.transforms ++ [r.answer a b]).map (Transform.mapOrigins f) := by
        rw [TransformRequest.answer_mapOrigins, List.map_append]
        rfl
      rw [answer_of_published ha hb, answer_of_published hsource hdestination, htransforms,
        ← record_mapOrigins]
      rfl

/-! ## Runs -/

/-- What is left to do, with other origins. -/
def Agenda.mapOrigins : Agenda → Agenda
  | .reading rest => .reading (rest.map (Declaration.mapOrigins f))
  | .applying ready waiting =>
    .applying (ready.map (Permutation.mapOrigins f)) (waiting.map (Permutation.mapOrigins f))
  | .stranding links rest => .stranding links (rest.map (Permutation.mapOrigins f))
  | .answering rest => .answering (rest.map (TransformRequest.mapOrigin f))

/-- The machine with other origins in its agenda and its state. -/
def Config.mapOrigins (k : Config) : Config := ⟨k.agenda.mapOrigins f, k.state.mapOrigins f⟩

variable {ds ds' : List Declaration} {k k' : Config} {s : Resolution}

/-- **No step looks at an origin.** -/
theorem Step.mapOrigins (h : Step ds k k') :
    Step (ds.map (Declaration.mapOrigins f)) (k.mapOrigins f) (k'.mapOrigins f) := by
  -- the step that the other list takes ends, read backwards, with the origins replaced
  cases h with
  | declare c cs s =>
    have hstep : Step (ds.map (Declaration.mapOrigins f)) _ _ :=
      .declare (c.mapOrigins f) (cs.map (Declaration.mapOrigins f)) (s.mapOrigins f)
    rwa [declare_mapOrigins] at hstep
  | start s =>
    have hstep : Step (ds.map (Declaration.mapOrigins f)) _ _ := .start (s.mapOrigins f)
    rwa [Declaration.permutations_mapOrigins] at hstep
  | derive h => exact .derive (derive_mapOrigins f h)
  | @round ws s h =>
    have hready : ((s.mapOrigins f).ready (ws.map (Permutation.mapOrigins f))).isEmpty = false := by
      rw [ready_mapOrigins, List.isEmpty_map, h]
    have hstep : Step (ds.map (Declaration.mapOrigins f)) _ _ := .round hready
    rwa [ready_mapOrigins, waiting_mapOrigins] at hstep
  | @stuck ws s h =>
    have hready : ((s.mapOrigins f).ready (ws.map (Permutation.mapOrigins f))).isEmpty = true := by
      rw [ready_mapOrigins, List.isEmpty_map, h]
    have hstep : Step (ds.map (Declaration.mapOrigins f)) _ _ := .stuck hready
    rwa [links_mapOrigins] at hstep
  | strand l p ps s =>
    have hstep : Step (ds.map (Declaration.mapOrigins f)) _ _ :=
      .strand l (p.mapOrigins f) (ps.map (Permutation.mapOrigins f)) (s.mapOrigins f)
    rwa [strandOne_mapOrigins] at hstep
  | finish l s =>
    have hstep : Step (ds.map (Declaration.mapOrigins f)) _ _ := .finish l (s.mapOrigins f)
    rwa [Declaration.requests_mapOrigins] at hstep
  | answer r rs s =>
    have hstep : Step (ds.map (Declaration.mapOrigins f)) _ _ :=
      .answer (r.mapOrigin f) (rs.map (TransformRequest.mapOrigin f)) (s.mapOrigins f)
    rwa [answer_mapOrigins] at hstep

theorem Reachable.mapOrigins (h : Reachable ds k) :
    Reachable (ds.map (Declaration.mapOrigins f)) (k.mapOrigins f) :=
  ReflTransGen.lift (Config.mapOrigins f) (fun _ _ => Step.mapOrigins f) _ _ h

/-- **A resolution does not depend on origins**: with other ones throughout, a declaration list
comes to the same with these. -/
theorem ofDeclarations_mapOrigins (h : ofDeclarations ds = .ok s) :
    ofDeclarations (ds.map (Declaration.mapOrigins f)) = .ok (s.mapOrigins f) := by
  obtain ⟨s₁, hs₁, hr⟩ := exists_reachable ds
  cases h.symm.trans hs₁
  obtain ⟨s₂, hs₂, hr₂⟩ := exists_reachable (ds.map (Declaration.mapOrigins f))
  have hend := eq_of_leads_answered ((hr.mapOrigins f).leads hr₂)
  rw [hs₂]
  exact congrArg (fun k => Except.ok k.state) hend

/-- **Metadata is inert.** Declaration lists that differ in their origins only come to domains of
the same tags in the same order, to transforms in the same order and to mistakes in the same order,
and all of these, with the marks in the deltas, differ in their origins only. -/
theorem resolution_up_to_origins (h : ds.map Declaration.bare = ds'.map Declaration.bare) :
    ∃ s s', ofDeclarations ds = .ok s ∧ ofDeclarations ds' = .ok s' ∧
      s.domains.keys = s'.domains.keys ∧
      s.domains.values.map Domain.bare = s'.domains.values.map Domain.bare ∧
      s.transforms.map Transform.bare = s'.transforms.map Transform.bare ∧
      s.diagnostics.map Diagnostic.bare = s'.diagnostics.map Diagnostic.bare := by
  obtain ⟨s, hs, -⟩ := exists_reachable ds
  obtain ⟨s', hs', -⟩ := exists_reachable ds'
  have hbare : s.mapOrigins (fun _ => Origin.blank) = s'.mapOrigins fun _ => Origin.blank := by
    have hb := ofDeclarations_mapOrigins (fun _ => Origin.blank) hs
    have hb' := ofDeclarations_mapOrigins (fun _ => Origin.blank) hs'
    exact Except.ok.inj (hb.symm.trans ((congrArg ofDeclarations h).trans hb'))
  have hdomains : s.domains.map Domain.bare = s'.domains.map Domain.bare :=
    congrArg (fun s : Resolution => s.domains) hbare
  refine ⟨s, s', hs, hs', ?_, ?_, congrArg (fun s : Resolution => s.transforms) hbare, ?_⟩
  · rw [← OrderedMap.keys_map Domain.bare, hdomains, OrderedMap.keys_map]
  · rw [← OrderedMap.values_map, hdomains, OrderedMap.values_map]
  · have hdiagnostics := congrArg Resolution.diagnostics hbare
    rwa [diagnostics_mapOrigins, diagnostics_mapOrigins] at hdiagnostics

/-- Two versions, their transform, a duplicate and a request that cannot be answered, once without
origins and once with a place and a note everywhere. The same comes of both, and the mistakes are
reported at the places of the declarations. -/
theorem resolution_of_annotated_versions :
    let versions (o : UInt32 → Origin) : List Declaration :=
      let point : ProductType :=
        { tag := "point", origin := o 1,
          fields := [{ name := "x", type := { typeName := "int", origin := o 3 }, origin := o 2 }] }
      let shape : SumType :=
        { tag := "shape", variants := [{ tag := "circle", origin := o 5 }], origin := o 4 }
      let edit : SumEdit :=
        { tag := "shape", removed := ["circle"], added := [{ tag := "square", origin := o 6 }],
          origin := o 7 }
      let upgrade : Permutation :=
        { tag := "v2", base := "v1", excluded := NameSet.ofList ["point"], sumEdits := [edit],
          included := [.user (.product { tag := "line", origin := o 8 })], origin := o 9 }
      [.domain { tag := "v1", userTypes := [.product point, .sum shape], origin := o 0 },
        .permutation upgrade, .transform ⟨"up", "v1", "v2", o 10⟩,
        .domain { tag := "v1", origin := o 11 }, .transform ⟨"back", "v3", "v1", o 12⟩]
    let ds := versions fun _ => Origin.blank
    let ds' := versions fun n => (Origin.ofPosition ⟨n, 1, 0⟩).annotate "note" "moved"
    ds ≠ ds' ∧ ds.map Declaration.bare = ds'.map Declaration.bare ∧
      ∃ s s', ofDeclarations ds = .ok s ∧ ofDeclarations ds' = .ok s' ∧
        s.domains.keys = s'.domains.keys ∧
        s.domains.values.map Domain.bare = s'.domains.values.map Domain.bare ∧
        s.transforms.map Transform.bare = s'.transforms.map Transform.bare ∧
        s.diagnostics.map Diagnostic.bare = s'.diagnostics.map Diagnostic.bare ∧
        s.domains.keys = ["v1", "v2"] ∧
        s.transforms.map (fun t => (t.name, t.delta.userTypes.map UserType.isRemoved)) =
          [("up", [true, false])] ∧
        s'.transforms.map (fun t => (t.name, t.delta.userTypes.map UserType.isRemoved)) =
          [("up", [true, false])] ∧
        s.diagnostics = [.validation ⟨.duplicateDomain "v1", Origin.blank⟩,
          .validation ⟨.undefinedDomain "back" "v3", Origin.blank⟩] ∧
        s'.diagnostics.map Diagnostic.display = ["11:1: domain `v1` is already defined",
          "12:1: transform `back` refers to undefined domain `v3`"] := by
  intro versions ds ds'
  have h : ds.map Declaration.bare = ds'.map Declaration.bare := by decide
  have hv : (ofDeclarations ds).map (fun s => (s.domains.keys,
      s.transforms.map (fun t => (t.name, t.delta.userTypes.map UserType.isRemoved)),
      s.diagnostics)) =
        .ok (["v1", "v2"], [("up", [true, false])],
          [.validation ⟨.duplicateDomain "v1", Origin.blank⟩,
            .validation ⟨.undefinedDomain "back" "v3", Origin.blank⟩]) := by
    decide +kernel
  have hv' : (ofDeclarations ds').map (fun s =>
      (s.transforms.map (fun t => (t.name, t.delta.userTypes.map UserType.isRemoved)),
      s.diagnostics.map Diagnostic.display)) =
        .ok ([("up", [true, false])], ["11:1: domain `v1` is already defined",
          "12:1: transform `back` refers to undefined domain `v3`"]) := by
    decide +kernel
  obtain ⟨s, s', hs, hs', hkeys, hdomains, htransforms, hdiagnostics⟩ := resolution_up_to_origins h
  rw [hs] at hv
  rw [hs'] at hv'
  obtain ⟨hpublished, hmarks, hreports⟩ := by simpa only [Prod.mk.injEq] using Except.ok.inj hv
  obtain ⟨hmarks', hreports'⟩ := by simpa only [Prod.mk.injEq] using Except.ok.inj hv'
  exact ⟨by decide, h, s, s', hs, hs', hkeys, hdomains, htransforms, hdiagnostics, hpublished,
    hmarks, hmarks', hreports, hreports'⟩

end Resolution

end VersionedTypes
