import VersionedTypes.Proofs.Ordered
import VersionedTypes.Proofs.Permutation.Meaning

/-!
# Two permutations in a row

Where a permuted domain is permuted again, exclusions and edits follow on inclusions. If the second
permutation leaves alone what the first one includes, its clauses could as well be applied in front
of the inclusions; and if it excludes nothing that the first one edits, its exclusions could be
applied in front of these edits. So one permutation does the work of both.

* `Clause.tag`, **`Clause.Makes`**: what one clause makes of a list of types, if it can be applied;
* `Permutation.applyClause_eq_ok_iff`: this is what its application gives, in every permutation;
* `Clause.Makes.of_append`, `Clause.Makes.swap`: a clause among types that it does not name, and an
  exclusion behind an edit;
* `Clause.Run` and its lemmas: the same for lists of clauses;
* `Permutation.andThen`: the one permutation;
* **`Permutation.apply_andThen`**: it gives what the second permutation gives.
-/

namespace VersionedTypes

/-! ## One clause -/

/-- The tag of the type that a clause is about. -/
def Clause.tag : Clause → String
  | .exclude tag => tag
  | .edit e => e.tag

/-- **What a clause makes of a list of types.** An exclusion takes the only type of its tag, and an
edit changes the first one. -/
inductive Clause.Makes : Clause → List UserType → List UserType → Prop
  | exclude {tag : String} {types : List UserType} (hb : tag ∉ Builtin.tags)
      (h : types.countP (·.tag == tag) = 1) :
    Makes (.exclude tag) types (types.filter (·.tag ≠ tag))
  | edit {e : SumEdit} {s s' : SumType} {front back : List UserType} (hb : e.tag ∉ Builtin.tags)
      (ht : s.tag = e.tag) (hfront : ∀ t ∈ front, t.tag ≠ e.tag) (h : e.applyTo s = .ok s') :
    Makes (.edit e) (front ++ .sum s :: back) (front ++ .sum s' :: back)

/-- **A clause is applied** with the same outcome in every permutation. -/
theorem Permutation.applyClause_eq_ok_iff {p : Permutation} {base : Domain} {c : Clause}
    {types types' : List UserType} :
    p.applyClause base types c = .ok types' ↔ c.Makes types types' := by
  constructor
  · intro h
    cases c with
    | exclude tag =>
      by_cases hb : tag ∈ Builtin.tags
      · cases (excludeType_of_builtin hb).symm.trans h
      by_cases hmem : tag ∈ types.map UserType.tag
      · by_cases hone : types.countP (·.tag == tag) = 1
        · cases (excludeType_of_unique hb hone).symm.trans h
          exact .exclude hb hone
        · cases (excludeType_of_ambiguous hb (two_le_countP_key hmem hone)).symm.trans h
      · cases (excludeType_of_not_mem hb hmem).symm.trans h
    | edit e =>
      have hb : e.tag ∉ Builtin.tags := fun hb => by
        cases (editType_of_builtin hb).symm.trans h
      obtain ⟨front, s, s', back, rfl, rfl, hs, hfront, happly⟩ :=
        SumEdit.exists_of_applyWithin (editType_eq_ok h)
      exact .edit hb hs hfront happly
  · intro h
    cases h with
    | exclude hb h => exact excludeType_of_unique hb h
    | edit hb ht hfront h =>
      rw [applyClause, editType_append_sum hb ht hfront, h]
      rfl

namespace Clause

section Makes

variable {c : Clause} {tag : String} {e : SumEdit} {types types' extra a b d : List UserType}

theorem Makes.mem_tags (h : c.Makes a b) : c.tag ∈ a.map UserType.tag := by
  cases h with
  | @exclude tag types hb h =>
    by_contra hno
    have hzero : a.countP (·.tag == tag) = 0 := countP_key_eq_zero_iff.mpr hno
    omega
  | @edit e s s' front back hb ht hfront h =>
    have hs : UserType.sum s ∈ front ++ .sum s :: back := by simp
    exact List.mem_map.mpr ⟨_, hs, ht⟩

theorem Makes.tags_subset (h : c.Makes a b) : b.map UserType.tag ⊆ a.map UserType.tag := by
  cases h with
  | exclude hb h => exact List.map_subset _ (List.filter_subset_self _)
  | edit hb ht hfront h => simp [UserType.tag, SumEdit.tag_of_applyTo h]

theorem Makes.of_append (h : c.Makes (types ++ extra) types')
    (hc : c.tag ∉ extra.map UserType.tag) :
    ∃ left, types' = left ++ extra ∧ c.Makes types left := by
  generalize hall : types ++ extra = all at h
  cases h with
  | @exclude tag all hb h =>
    have hextra : extra.countP (·.tag == tag) = 0 := countP_key_eq_zero_iff.mpr hc
    have hkept : extra.filter (·.tag ≠ tag) = extra := by
      rw [List.filter_eq_self]
      intro t ht
      have hne : t.tag ≠ tag := fun e => hc (List.mem_map.mpr ⟨t, ht, e⟩)
      simpa using hne
    rw [← hall, List.countP_append, hextra, Nat.add_zero] at h
    exact ⟨types.filter (·.tag ≠ tag), by rw [← hall, List.filter_append, hkept], .exclude hb h⟩
  | @edit e s s' front back hb ht hfront h =>
    have hs : UserType.sum s ∉ extra := fun hs => hc (List.mem_map.mpr ⟨_, hs, ht⟩)
    rcases List.append_eq_append_iff.mp hall with ⟨more, rfl, rfl⟩ | ⟨more, rfl, hmore⟩
    · exact absurd (List.mem_append_right _ List.mem_cons_self) hs
    · cases more with
      | nil =>
        rw [List.nil_append] at hmore
        exact absurd (hmore ▸ List.mem_cons_self) hs
      | cons t more =>
        obtain ⟨rfl, rfl⟩ := List.cons.inj hmore
        exact ⟨front ++ .sum s' :: more, by simp, .edit hb ht hfront h⟩

/-- An exclusion behind an edit of another type can be done first. -/
theorem Makes.swap (he : (Clause.edit e).Makes a b) (hx : (Clause.exclude tag).Makes b d)
    (hne : e.tag ≠ tag) :
    ∃ b', (Clause.exclude tag).Makes a b' ∧ (Clause.edit e).Makes b' d := by
  generalize hc : Clause.exclude tag = c at hx
  cases hx with
  | edit => cases hc
  | exclude hb hone =>
    cases hc
    cases he with
    | @edit e s s' front back hnb ht hfront h =>
      have htag : s'.tag = s.tag := SumEdit.tag_of_applyTo h
      refine ⟨(front ++ .sum s :: back).filter (·.tag ≠ tag), .exclude hb ?_, ?_⟩
      · rw [countP_key_eq_count] at hone ⊢
        simpa [UserType.tag, htag] using hone
      · have hs : ∀ {u : SumType}, u.tag = s.tag →
            (front ++ .sum u :: back).filter (·.tag ≠ tag) =
              front.filter (·.tag ≠ tag) ++ .sum u :: back.filter (·.tag ≠ tag) := by
          intro u hu
          have hkeep : u.tag ≠ tag := fun e => hne (by rw [← ht, ← hu, e])
          rw [List.filter_append, List.filter_cons_of_pos (by simp [UserType.tag, hkeep])]
        rw [hs rfl, hs htag]
        exact .edit hnb ht (fun t ht => hfront t (List.mem_of_mem_filter ht)) h

end Makes

/-! ## Clauses one after the other -/

/-- What clauses make of a list of types, one after the other. -/
inductive Run : List Clause → List UserType → List UserType → Prop
  | nil {types : List UserType} : Run [] types types
  | cons {c : Clause} {cs : List Clause} {a b d : List UserType} (h : c.Makes a b)
      (hs : Run cs b d) : Run (c :: cs) a d

namespace Run

variable {c : Clause} {cs cs' : List Clause} {tag : String} {tags : List String}
  {es : List SumEdit} {types types' extra a b d : List UserType}

theorem append_iff : Run (cs ++ cs') a d ↔ ∃ b, Run cs a b ∧ Run cs' b d := by
  induction cs generalizing a with
  | nil =>
    constructor
    · exact fun h => ⟨a, .nil, h⟩
    · rintro ⟨_, ⟨⟩, h⟩
      exact h
  | cons c cs ih =>
    constructor
    · rintro (_ | ⟨h, hs⟩)
      obtain ⟨b, hcs, hcs'⟩ := ih.mp hs
      exact ⟨b, .cons h hcs, hcs'⟩
    · rintro ⟨b, _ | ⟨h, hcs⟩, hcs'⟩
      exact .cons h (ih.mpr ⟨b, hcs, hcs'⟩)

theorem mem_tags (h : Run cs a b) : ∀ c ∈ cs, c.tag ∈ a.map UserType.tag := by
  induction h with
  | nil => exact nofun
  | cons h _ ih => exact List.forall_mem_cons.mpr ⟨h.mem_tags, fun c hc => h.tags_subset (ih c hc)⟩

theorem nodup_of_exclusions (h : Run (tags.map Clause.exclude) a b) : tags.Nodup := by
  induction tags generalizing a with
  | nil => exact List.nodup_nil
  | cons tag tags ih =>
    obtain _ | ⟨h, hs⟩ := h
    refine List.nodup_cons.mpr ⟨fun hmem => ?_, ih hs⟩
    have hleft := hs.mem_tags _ (List.mem_map_of_mem hmem)
    cases h with
    | exclude hb h =>
      obtain ⟨t, ht, htag⟩ := List.mem_map.mp hleft
      exact of_decide_eq_true (List.mem_filter.mp ht).2 htag

theorem of_append (h : Run cs (types ++ extra) types')
    (hcs : ∀ c ∈ cs, c.tag ∉ extra.map UserType.tag) :
    ∃ left, types' = left ++ extra ∧ Run cs types left := by
  induction cs generalizing types with
  | nil =>
    obtain _ | _ := h
    exact ⟨types, rfl, .nil⟩
  | cons c cs ih =>
    obtain _ | ⟨h, hs⟩ := h
    obtain ⟨hc, hcs⟩ := List.forall_mem_cons.mp hcs
    obtain ⟨mid, rfl, hmid⟩ := h.of_append hc
    obtain ⟨left, hleft, hrun⟩ := ih hs hcs
    exact ⟨left, hleft, .cons hmid hrun⟩

theorem exclude_first (he : Run (es.map Clause.edit) a b) (hx : (Clause.exclude tag).Makes b d)
    (hne : ∀ e ∈ es, e.tag ≠ tag) :
    ∃ b', (Clause.exclude tag).Makes a b' ∧ Run (es.map Clause.edit) b' d := by
  induction es generalizing a with
  | nil =>
    obtain _ | _ := he
    exact ⟨d, hx, .nil⟩
  | cons e es ih =>
    obtain _ | ⟨h, hs⟩ := he
    obtain ⟨he, hes⟩ := List.forall_mem_cons.mp hne
    obtain ⟨mid, hmid, hrun⟩ := ih hs hes
    obtain ⟨b', hb', hedit⟩ := h.swap hmid he
    exact ⟨b', hb', .cons hedit hrun⟩

theorem exclusions_first (he : Run (es.map Clause.edit) a b)
    (hx : Run (tags.map Clause.exclude) b d) (hne : ∀ e ∈ es, e.tag ∉ tags) :
    ∃ b', Run (tags.map Clause.exclude) a b' ∧ Run (es.map Clause.edit) b' d := by
  induction tags generalizing a b with
  | nil =>
    obtain _ | _ := hx
    exact ⟨a, .nil, he⟩
  | cons tag tags ih =>
    obtain _ | ⟨h, hs⟩ := hx
    obtain ⟨mid, hmid, hrun⟩ := he.exclude_first h fun e he ht => hne e he (by simp [ht])
    obtain ⟨b', hb', hedits⟩ := ih hrun hs fun e he ht => hne e he (by simp [ht])
    exact ⟨b', .cons hmid hb', hedits⟩

end Run

end Clause

/-! ## One permutation for two -/

namespace Permutation

variable {p q : Permutation} {base r d : Domain} {cs : List Clause} {types types' : List UserType}

theorem foldlM_applyClause_eq_ok_iff :
    cs.foldlM (p.applyClause base) types = .ok types' ↔ Clause.Run cs types types' := by
  induction cs generalizing types with
  | nil =>
    constructor
    · rintro ⟨⟩
      exact .nil
    · rintro ⟨⟩
      rfl
  | cons c cs ih =>
    rw [List.foldlM_cons]
    constructor
    · intro h
      cases hc : p.applyClause base types c with
      | error failure => rw [hc] at h; cases h
      | ok mid =>
        rw [hc] at h
        exact .cons (applyClause_eq_ok_iff.mp hc) (ih.mp h)
    · rintro (_ | ⟨h, hs⟩)
      rw [applyClause_eq_ok_iff.mpr h]
      exact ih.mpr hs

/-- **What a permutation makes of a base**, and that it makes it, says the run of its clauses. -/
theorem applyTo_eq_ok_iff :
    p.applyTo base = .ok d ↔
      ∃ types, Clause.Run p.clauses base.userTypes types ∧
        d = { tag := p.tag, userTypes := types ++ p.included.filterMap SchemaType.user?,
              origin := p.origin } := by
  rw [applyTo, map_eq_ok_iff]
  simp only [foldlM_applyClause_eq_ok_iff, eq_comm (b := d)]

/-- The permutation that does the work of `p` and then of `q`, under the name of `q`. -/
def andThen (p q : Permutation) : Permutation where
  tag := q.tag
  base := p.base
  excluded := NameSet.ofList (p.excluded.names ++ q.excluded.names)
  included := p.included ++ q.included
  sumEdits := p.sumEdits ++ q.sumEdits
  origin := q.origin

theorem clauses_andThen (h : (p.excluded.names ++ q.excluded.names).Nodup) :
    (p.andThen q).clauses =
      (p.excluded.names.map Clause.exclude ++ q.excluded.names.map Clause.exclude) ++
        (p.sumEdits.map Clause.edit ++ q.sumEdits.map Clause.edit) := by
  rw [clauses, andThen, NameSet.names_ofList h, List.map_append, List.map_append]

/-- **Two permutations in a row are one.** If the first gives a domain, and the second another one
of this domain, then the one permutation for both gives the same on the first base, whatever that
base is. The second must not exclude what the first includes or edits, nor edit what the first
includes. -/
theorem apply_andThen {p q : Permutation} {domains domains' : DomainMap} {r d : Domain}
    (hp : p.apply domains = .ok r) (hr : domains'.get? q.base = some r)
    (hq : q.apply domains' = .ok d)
    (hincluded : ∀ t ∈ p.included, t.tag ∉ q.excluded.names)
    (hedited : ∀ e ∈ p.sumEdits, e.tag ∉ q.excluded.names)
    (hkept : ∀ e ∈ q.sumEdits, ∀ t ∈ p.included, e.tag ≠ t.tag) :
    (p.andThen q).apply domains = .ok d := by
  obtain ⟨base, hbase⟩ := exists_base_of_apply hp
  have hbase' : domains.get? (p.andThen q).base = some base := hbase
  rw [apply_of_get? hbase, applyTo_eq_ok_iff] at hp
  rw [apply_of_get? hr, applyTo_eq_ok_iff] at hq
  rw [apply_of_get? hbase', applyTo_eq_ok_iff]
  obtain ⟨kept, hrun, rfl⟩ := hp
  obtain ⟨types, hrun', rfl⟩ := hq
  -- the second permutation passes over what the first one includes
  have hpass : ∀ c ∈ q.clauses,
      c.tag ∉ (p.included.filterMap SchemaType.user?).map UserType.tag := by
    intro c hc hmem
    obtain ⟨t, ht, htag⟩ := List.mem_map.mp hmem
    have ht := mem_filterMap_user?.mp ht
    rcases List.mem_append.mp hc with hc | hc
    · obtain ⟨tag, hx, rfl⟩ := List.mem_map.mp hc
      have hx : t.tag ∈ q.excluded.names := by rwa [htag]
      exact hincluded _ ht hx
    · obtain ⟨e, he, rfl⟩ := List.mem_map.mp hc
      exact hkept e he _ ht htag.symm
  obtain ⟨left, rfl, hleft⟩ := hrun'.of_append hpass
  -- its exclusions go in front of the edits of the first one
  obtain ⟨a, hx, he⟩ := Clause.Run.append_iff.mp hrun
  obtain ⟨b, hx', he'⟩ := Clause.Run.append_iff.mp hleft
  obtain ⟨m, hx', he⟩ := he.exclusions_first hx' hedited
  have hall := Clause.Run.append_iff.mpr ⟨_, hx, hx'⟩
  have hn : (p.excluded.names ++ q.excluded.names).Nodup :=
    Clause.Run.nodup_of_exclusions (by rwa [List.map_append])
  refine ⟨left, ?_, ?_⟩
  · rw [clauses_andThen hn]
    exact Clause.Run.append_iff.mpr ⟨m, hall, Clause.Run.append_iff.mpr ⟨_, he, he'⟩⟩
  · simp [andThen]

/-- Both versions edit one sum, and the second takes a variant out that the first one adds. The type
that the first one includes has the tag of one that it excludes. -/
theorem apply_andThen_of_versions :
    let shape (tags : List String) : UserType :=
      .sum { tag := "shape", variants := tags.map fun tag => { tag } }
    let line (name : String) : ProductType :=
      { tag := "line", fields := [{ name, type := { typeName := "int" } }] }
    let base : Domain :=
      { tag := "v1",
        userTypes := [.product (line "from"), shape ["dot", "box"], .product { tag := "color" }] }
    let p : Permutation :=
      { tag := "v2", base := "v1", excluded := NameSet.empty.insert "line",
        included := [.builtin .symbol, .user (.product (line "to"))],
        sumEdits := [{ tag := "shape", removed := ["dot"], added := [{ tag := "disc" }] }] }
    let r : Domain :=
      { tag := "v2",
        userTypes := [shape ["box", "disc"], .product { tag := "color" }, .product (line "to")] }
    let q : Permutation :=
      { tag := "v3", base := "v2", excluded := NameSet.empty.insert "color",
        included := [.user (.product { tag := "point" })],
        sumEdits := [{ tag := "shape", removed := ["disc"], added := [{ tag := "ring" }] }] }
    let d : Domain :=
      { tag := "v3",
        userTypes := [shape ["box", "ring"], .product (line "to"), .product { tag := "point" }] }
    let domains : DomainMap := (OrderedMap.empty.insert "v1" base).insert "v2" r
    base.errors = [] ∧ p.apply domains = .ok r ∧ domains.get? q.base = some r ∧
      q.apply domains = .ok d ∧ (p.andThen q).excluded.names = ["line", "color"] ∧
      (p.andThen q).apply domains = .ok d := by
  intro shape line base p r q d domains
  have hp : p.apply domains = .ok r := by decide
  have hr : domains.get? q.base = some r := by decide
  have hq : q.apply domains = .ok d := by decide
  exact ⟨by decide, hp, hr, hq, by decide,
    apply_andThen hp hr hq (by decide) (by decide) (by decide)⟩

end Permutation

end VersionedTypes
