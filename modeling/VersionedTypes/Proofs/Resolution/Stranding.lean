import VersionedTypes.Proofs.Resolution.Rounds
import VersionedTypes.Proofs.Resolution.Suppression

/-!
# Permutations that wait in vain

When no permutation is ready any more, those that wait are rejected in the order of the list. Of
these the unfounded ones are reported. To apply them once more would say the same, since none of
them has a base.

* `Reachable.waiting_eq`: the permutations that wait are those whose base is open;
* `strandAfresh`, `foldlM_strandAfresh`: reports that come from a second application;
* `strand_diagnostics`: the reports, in order;
* **`stuck_permutations_reported`**: exactly the unfounded permutations are reported.
-/

namespace VersionedTypes

namespace Resolution

open Declaration

variable {ds : List Declaration} {s : Resolution} {p : Permutation} {ws : List Permutation}
  {l : OrderedMap String}

/-- **The permutations that wait** are those whose base is open, in the order of the list. -/
theorem Reachable.waiting_eq (h : Reachable ds ⟨.applying [] ws, s⟩)
    (hw : (s.ready ws).isEmpty = true) :
    ws = (permutations ds).filter fun p => !s.isSettled p.base := by
  obtain ⟨n, hd, hws⟩ := h.layered
  have hd : s.decided = schedule ds n := (List.append_nil _).symm.trans hd
  rw [hws, unreached]
  refine List.filter_congr fun p hp => ?_
  rw [Bool.eq_iff_iff, decide_eq_true_eq, Bool.not_eq_true']
  constructor
  · intro hn
    exact ready_isEmpty_iff.mp hw p (hws ▸ List.mem_filter.mpr ⟨hp, decide_eq_true hn⟩)
  · intro hs hn
    have : s.isSettled p.base = true := (h.isSettled_iff_known hd).mpr (known_succ_of_known hn)
    rw [hs] at this
    cases this

/-! ## A second application -/

/-- As `strandOne`, but an unfounded permutation is applied to the published domains once more, and
what this says is reported. -/
def strandAfresh (l : OrderedMap String) (s : Resolution) (p : Permutation) :
    Except Fault Resolution :=
  let s' := s.reject p.tag
  if isUnfounded l p then
    match p.apply s'.domains with
    | .ok _ => .ok (s'.record (.permutation p) .stranded)
    | .error (.illegal e) => .ok (s'.record (.permutation p) (.unfounded e))
    | .error (.fault f) => .error f
  else .ok (s'.record (.permutation p) .stranded)

/-- Without a base the application fails at once. -/
theorem strandAfresh_eq (hb : s.domains.get? p.base = none) :
    strandAfresh l s p = .ok (strandOne l s p) := by
  have happly : p.apply (s.reject p.tag).domains = .error (.illegal p.missingBase) := by
    change p.apply s.domains = _
    rw [Permutation.apply, hb]
  unfold strandAfresh strandOne
  by_cases hu : isUnfounded l p = true
  · rw [if_pos hu, if_pos hu, happly]
  · rw [if_neg hu, if_neg hu]

theorem foldlM_strandAfresh (hb : ∀ p ∈ ws, s.domains.get? p.base = none) :
    ws.foldlM (strandAfresh l) s = .ok (ws.foldl (strandOne l) s) := by
  induction ws generalizing s with
  | nil => rfl
  | cons p ws ih =>
    obtain ⟨hp, hws⟩ := List.forall_mem_cons.mp hb
    rw [List.foldlM_cons, strandAfresh_eq hp]
    exact ih hws

/-! ## Reports -/

theorem strand_records (l : OrderedMap String) (s : Resolution) (ws : List Permutation) :
    (ws.foldl (strandOne l) s).records = s.records ++ ws.map (strandedRecord l) := by
  induction ws generalizing s with
  | nil => exact (List.append_nil _).symm
  | cons p ws ih =>
    rw [List.foldl_cons, ih, strandOne_records, List.append_assoc]
    rfl

theorem strand_domains (l : OrderedMap String) (s : Resolution) (ws : List Permutation) :
    (ws.foldl (strandOne l) s).domains = s.domains := by
  induction ws generalizing s with
  | nil => rfl
  | cons p ws ih => rw [List.foldl_cons, ih, strandOne_domains]

/-- The unfounded permutations are reported in order, and no others. -/
theorem strand_diagnostics (l : OrderedMap String) (s : Resolution) (ws : List Permutation) :
    (ws.foldl (strandOne l) s).diagnostics =
      s.diagnostics ++ (ws.filter (isUnfounded l)).map fun p => .permutation p.missingBase := by
  have hreports : (ws.map (strandedRecord l)).flatMap (fun r => r.outcome.diagnostics) =
      (ws.filter (isUnfounded l)).map fun p => .permutation p.missingBase := by
    induction ws with
    | nil => rfl
    | cons p ws ih =>
      rw [List.map_cons, List.flatMap_cons, ih, List.filter_cons, strandedRecord]
      by_cases hu : isUnfounded l p = true
      · simp [hu, Outcome.diagnostics]
      · simp [hu, Outcome.diagnostics]
  rw [diagnostics, strand_records, List.flatMap_append, hreports]
  rfl

/-- **Exactly the unfounded permutations are reported.** The rounds end in a state in which the
permutations that wait are those whose base is open, in the order of the list. One of them is
unfounded if none that waits has the tag of its base, or if following the links, of which the last
one of a tag counts, comes back to its tag after some steps. Of each unfounded one it is reported
once, in order, that its base does not exist, which is what a second application says, and nothing
else is reported or published; what follows are answers to requests. If any permutation waits, one
is reported. -/
theorem stuck_permutations_reported (ds : List Declaration) :
    ∃ s ws, (ds.foldl declare {}).rounds (permutations ds) = .ok (s, ws) ∧
      ofDeclarations ds = .ok ((requests ds).foldl answer (s.strand ws)) ∧
      ws = (permutations ds).filter (fun p => !s.isSettled p.base) ∧
      (∀ p ∈ ws, isUnfounded (links ws) p = true ↔
        (∀ q ∈ ws, q.tag ≠ p.base) ∨
          ∃ n, 0 < n ∧ (fun tag => tag.bind (lastBase ws))^[n] (some p.tag) = some p.tag) ∧
      (s.strand ws).diagnostics = s.diagnostics ++ (ws.filter (isUnfounded (links ws))).map
        (fun p => .permutation ⟨.nonexistentBase p.tag p.base, p.origin⟩) ∧
      (s.strand ws).domains = s.domains ∧
      ws.foldlM (strandAfresh (links ws)) s = .ok (s.strand ws) ∧
      (ws ≠ [] → ∃ p ∈ ws, isUnfounded (links ws) p = true) := by
  obtain ⟨s, ws, hr, hw, hl⟩ := leads_rounds ds (ds.foldl declare {}) (permutations ds)
    (sound_foldl_declare ds sound_empty)
  have h : Reachable ds ⟨.applying [] ws, s⟩ := ((leads_reading ds {}).tail (.start _)).trans hl
  have hb : ∀ p ∈ ws, s.domains.get? p.base = none := fun p hp =>
    isPublished_eq_false_iff.mp (isSettled_eq_false_iff.mp (ready_isEmpty_iff.mp hw p hp)).1
  refine ⟨s, ws, hr, ?_, h.waiting_eq hw, fun p _ => ?_, strand_diagnostics _ s ws,
    strand_domains _ s ws, foldlM_strandAfresh hb, exists_isUnfounded⟩
  · rw [ofDeclarations, settle_eq_rounds, hr]
    rfl
  · rw [isUnfounded_iff, exists_iterate_iff]
    unfold Next
    simp only [get?_links]

end Resolution

end VersionedTypes
