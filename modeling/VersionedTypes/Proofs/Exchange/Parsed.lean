import VersionedTypes.Proofs.Exchange.RoundTrip
import VersionedTypes.Proofs.Json.Ensures
import VersionedTypes.Proofs.Permutation.Marks

/-!
# What declarations a text can stand for

However a declaration is written, reading it gives one without marks of removal that includes no
builtin: no format has a column for the marks, and the format of types has no kind for builtins. So
what was read can be printed, and is read back as it is.

* `unmarked_eq_self_iff` for domains, edits and permutations: what it is to be without marks;
* `ensures_format` for each part of a declaration: what its format lets through;
* `Declaration.IsPlain`, **`Declaration.isPlain_of_parse`**: what declarations are read;
* **`Declaration.exists_print_parse`**: they are read back when they are printed.
-/

namespace VersionedTypes

open Json Json.Reader Format

/-! ## Nothing is marked -/

theorem Domain.unmarked_eq_self_iff {d : Domain} :
    d.unmarked = d ↔ ∀ t ∈ d.userTypes, t.unmarked = t := by
  cases d
  simp [unmarked, map_eq_self_iff]

theorem SchemaType.unmarked_eq_self_iff {t : SchemaType} :
    t.unmarked = t ↔ ∀ u, t = .user u → u.unmarked = u := by
  cases t <;> simp [unmarked]

theorem SumEdit.unmarked_eq_self_iff {e : SumEdit} :
    e.unmarked = e ↔ ∀ v ∈ e.added, v.removed = false := by
  cases e
  simp [unmarked, map_eq_self_iff, ProductType.unmarked_eq_self_iff]

theorem Permutation.unmarked_eq_self_iff {p : Permutation} : p.unmarked = p ↔ p.Unmarked := by
  have hparts : p.unmarked = p ↔
      (∀ t ∈ p.included, t.unmarked = t) ∧ ∀ e ∈ p.sumEdits, e.unmarked = e := by
    cases p
    simp [unmarked, map_eq_self_iff]
  simp only [hparts, SchemaType.unmarked_eq_self_iff, SumEdit.unmarked_eq_self_iff]
  constructor
  · rintro ⟨hincluded, hadded⟩
    exact ⟨fun t ht => hincluded _ ht t rfl, hadded⟩
  · rintro ⟨hincluded, hadded⟩
    refine ⟨?_, hadded⟩
    rintro _ ht u rfl
    exact hincluded u ht

/-! ## What the formats let through -/

theorem ProductType.ensures_format : ProductType.format.Ensures fun p => p.removed = false := by
  refine ensures_record (I := fun _ => True) trivial ?_ fun s _ => ?_
  · exact ⟨keeps_any _, keeps_any _, keeps_any _, keeps_any _⟩
  · exact (gives_any _).bind fun tag _ => gives_ok rfl

theorem SumType.ensures_format :
    SumType.format.Ensures fun s => s.removed = false ∧ ∀ v ∈ s.variants, v.removed = false := by
  refine ensures_record (I := fun s : SumType.Draft => ∀ v ∈ s.variants.getD [], v.removed = false)
    (List.forall_mem_nil _) ?_ fun s hs => ?_
  · exact ⟨keeps_of_set fun _ _ hs => hs,
      (ensures_list ProductType.ensures_format).keeps fun _ _ _ hvs => hvs,
      keeps_of_set fun _ _ hs => hs⟩
  · exact (gives_any _).bind fun tag _ => gives_ok ⟨rfl, hs⟩

theorem UserType.ensures_format : UserType.format.Ensures fun t => t.unmarked = t := by
  refine ensures_tagged ?_
  refine ⟨fun v => .map fun p hp => ?_, fun v => .map fun s hs => ?_⟩
  · exact unmarked_product_iff.mpr (ProductType.ensures_format.ofJson v p hp)
  · exact unmarked_sum_iff.mpr (SumType.ensures_format.ofJson v s hs)

theorem Domain.ensures_format :
    Domain.format.Ensures fun d => ∀ t ∈ d.userTypes, t.unmarked = t := by
  refine ensures_record (I := fun s : Domain.Draft => ∀ t ∈ s.userTypes.getD [], t.unmarked = t)
    (List.forall_mem_nil _) ?_ fun s hs => ?_
  · exact ⟨keeps_of_set fun _ _ hs => hs,
      (ensures_list UserType.ensures_format).keeps fun _ _ _ hts => hts,
      keeps_of_set fun _ _ hs => hs⟩
  · exact (gives_any _).bind fun tag _ => gives_ok hs

theorem SumEdit.ensures_format :
    SumEdit.format.Ensures fun e => ∀ v ∈ e.added, v.removed = false := by
  refine ensures_record (I := fun s : SumEdit.Draft => ∀ v ∈ s.added.getD [], v.removed = false)
    (List.forall_mem_nil _) ?_ fun s hs => ?_
  · exact ⟨keeps_of_set fun _ _ hs => hs, keeps_of_set fun _ _ hs => hs,
      (ensures_list ProductType.ensures_format).keeps fun _ _ _ hvs => hvs,
      keeps_of_set fun _ _ hs => hs⟩
  · exact (gives_any _).bind fun tag _ => gives_ok hs

theorem Permutation.ensures_format :
    Permutation.format.Ensures fun p => p.Unmarked ∧ ∀ b, .builtin b ∉ p.included := by
  refine ensures_record (I := fun s : Permutation.Draft =>
      (∀ t ∈ s.included.getD [], t.unmarked = t) ∧
        ∀ e ∈ s.sumEdits.getD [], ∀ v ∈ e.added, v.removed = false)
    ⟨List.forall_mem_nil _, List.forall_mem_nil _⟩ ?_ fun s hs => ?_
  · exact ⟨keeps_of_set fun _ _ hs => hs, keeps_of_set fun _ _ hs => hs,
      keeps_of_set fun _ _ hs => hs,
      (ensures_list UserType.ensures_format).keeps fun _ _ hs hts => ⟨hts, hs.2⟩,
      (ensures_list SumEdit.ensures_format).keeps fun _ _ hs hes => ⟨hs.1, hes⟩,
      keeps_of_set fun _ _ hs => hs⟩
  · have hincluded : ∀ t, t ∈ (s.included.getD []).map SchemaType.user →
        ∃ u ∈ s.included.getD [], .user u = t := fun t => List.mem_map.mp
    refine (gives_any _).bind fun tag _ => (gives_any _).bind fun base _ =>
      gives_ok ⟨⟨fun t ht => ?_, hs.2⟩, fun b hb => ?_⟩
    · obtain ⟨u, hu, ⟨⟩⟩ := hincluded _ ht
      exact hs.1 t hu
    · obtain ⟨u, -, hu⟩ := hincluded _ hb
      cases hu

namespace Declaration

variable {text : String} {c : Declaration} {ds : List Declaration}

/-- Nothing is marked, and no builtin is included. -/
structure IsPlain (c : Declaration) : Prop where
  unmarked : c.unmarked = c
  declared : ∀ p, c = permutation p → ∀ b, .builtin b ∉ p.included

theorem ensures_format : Declaration.format.Ensures IsPlain := by
  refine ensures_tagged ?_
  refine ⟨fun v => .map fun d hd => ?_, fun v => .map fun p hp => ?_,
    fun v => .map fun r _ => ⟨rfl, nofun⟩⟩
  · have hmarks := Domain.ensures_format.ofJson v d hd
    exact ⟨congrArg domain (Domain.unmarked_eq_self_iff.mpr hmarks), nofun⟩
  · obtain ⟨hmarks, hbuiltins⟩ := Permutation.ensures_format.ofJson v p hp
    refine ⟨congrArg permutation (Permutation.unmarked_eq_self_iff.mpr hmarks), ?_⟩
    rintro _ ⟨⟩
    exact hbuiltins

/-- **Whatever a text is like, the declarations that are read** have no marks and include no
builtins. -/
theorem isPlain_of_parse (h : parse text = .ok ds) : ∀ c ∈ ds, c.IsPlain :=
  (ensures_list ensures_format).parse text ds h

theorem IsPlain.reads {n : Nat} (h : c.IsPlain) (rest : List Char) :
    Reads (format.read (n + 10)) (compactChars c.toJson ++ rest) c rest := by
  have hread := reads_toJson (n := n) h.declared rest
  rwa [h.unmarked] at hread

/-- **Such declarations are read back** when they are printed. -/
theorem exists_print_parse (h : ∀ c ∈ ds, c.IsPlain) :
    ∃ text, print ds = .ok text ∧ parse text = .ok ds := by
  have hprint : print ds = .ok (Json.array (ds.map toJson)).compact := by
    rw [print, mapM_eq_ok_of_mem fun c hc => toJson?_eq (h c hc).declared]
    rfl
  have hread : Reads ((list format).read maxDepth)
      ('[' :: (separated [','] (ds.map fun c => compactChars c.toJson) ++ [']'])) (ds.map id) [] :=
    reads_list (fun c _ => c.opens_toJson) (fun c hc rest _ => (h c hc).reads rest) []
  refine ⟨_, hprint, parse_eq_ok ?_⟩
  rw [List.map_id] at hread
  rwa [compact, String.toList_ofList, compactChars, compactItems_eq, List.map_map]

end Declaration

end VersionedTypes
