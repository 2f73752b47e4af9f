import VersionedTypes.Proofs.Exchange.Parsed
import VersionedTypes.Proofs.Resolution.Completeness
import VersionedTypes.Proofs.Resolution.Provenance

/-!
# Where marks come from

No text declares a mark of removal. Edits move variants and change none, so a permutation without
marks makes a domain without marks of one, and the published domains have none, however many
permutations lie between them and a plain domain. All marks in a transform are those of the delta.

* `Grounded.unmarked`: domains that are made one of another;
* **`resolution_of_parsed`**: the declarations of a text, and what they come to.
-/

namespace VersionedTypes

namespace Resolution

open Declaration

variable {ds : List Declaration} {entries : List (String × Domain)}

/-- **Marks are never published** if none is declared. -/
theorem Grounded.unmarked (h : Grounded ds entries) (hds : ∀ c ∈ ds, c.unmarked = c)
    (hvalid : ∀ e ∈ entries, e.2.errors = []) : ∀ e ∈ entries, e.2.unmarked = e.2 := by
  induction h with
  | nil => exact nofun
  | plain h hd ih =>
    rw [List.forall_mem_append] at hvalid ⊢
    refine ⟨ih hvalid.1, List.forall_mem_singleton.mpr ?_⟩
    exact domain.inj (hds _ (mem_domains.mp (List.mem_of_find?_eq_some hd)))
  | permuted h hp hn hb hd ih =>
    rw [List.forall_mem_append] at hvalid ⊢
    refine ⟨ih hvalid.1, List.forall_mem_singleton.mpr ?_⟩
    -- the base stands among the entries in front, so it is valid and has no marks
    obtain rfl := Permutation.eq_result_of_applyTo (hvalid.1 _ hb) hd
    have hbase := Domain.unmarked_eq_self_iff.mp (ih hvalid.1 _ hb)
    have hp := Permutation.unmarked_eq_self_iff.mp (permutation.inj (hds _ hp))
    exact Domain.unmarked_eq_self_iff.mpr fun t => Permutation.unmarked_of_mem_result hbase hp

/-- **What a text declares has no marks**, however it is written: a mark in the text is not read.
No permutation includes a builtin, and a domain has no place for one. The declarations can be
printed, and are read back as they are. What they come to has no marks either: no published domain
has any, or declares the tag of a builtin. A transform is the delta of one published domain against
another one, and without the marks of the delta it is the first domain again. -/
theorem resolution_of_parsed {text : String} (h : parse text = .ok ds) :
    (∀ c ∈ ds, c.unmarked = c) ∧ (∀ p, permutation p ∈ ds → ∀ b, .builtin b ∉ p.included) ∧
    (∃ text', print ds = .ok text' ∧ parse text' = .ok ds) ∧
    ∃ s, ofDeclarations ds = .ok s ∧
      (∀ tag d, s.domains.get? tag = some d →
        d.unmarked = d ∧ ∀ t ∈ d.userTypes, t.tag ∉ Builtin.tags) ∧
      ∀ t ∈ s.transforms, ∃ a b, s.domains.get? t.source = some a ∧
        s.domains.get? t.destination = some b ∧ t.delta = a.delta b ∧ t.delta.unmarked = a := by
  have hplain := isPlain_of_parse h
  have hds : ∀ c ∈ ds, c.unmarked = c := fun c hc => (hplain c hc).unmarked
  obtain ⟨s, hs, hr⟩ := exists_reachable ds
  have hdomains : ∀ tag d, s.domains.get? tag = some d →
      d.unmarked = d ∧ ∀ t ∈ d.userTypes, t.tag ∉ Builtin.tags := by
    intro tag d hd
    have hvalid : ∀ e ∈ s.domains.entries, e.2.errors = [] := fun e he =>
      (hr.sound e.1 e.2 (OrderedMap.get?_eq_some_iff.mpr he)).2
    have hentry := OrderedMap.get?_eq_some_iff.mp hd
    exact ⟨hr.grounded.unmarked hds hvalid _ hentry,
      fun t => Domain.not_builtin_of_mem (hvalid _ hentry)⟩
  refine ⟨hds, fun p hp => (hplain _ hp).declared p rfl, exists_print_parse hplain, s, hs, hdomains,
    fun t ht => ?_⟩
  rw [hr.transforms_eq] at ht
  obtain ⟨r, -, hr⟩ := List.mem_filterMap.mp ht
  obtain ⟨a, b, ha, hb, rfl⟩ := answer?_eq_some_iff.mp hr
  exact ⟨a, b, ha, hb, rfl, (a.unmarked_delta b).trans (hdomains _ a ha).1⟩

set_option maxRecDepth 10000 in
/-- Marks of types and variants, in objects with the kind behind or given by its number, of which
none is read. The delta between the two versions has its own. -/
theorem resolution_of_parsed_versions :
    let text :=
      "[\x7b\"tag\": \"v1\", \"kind\": \"domain\", \"user_types\": [
          \x7b\"is_removed\": true, \"tag\": \"a\", \"kind\": \"product\"\x7d,
          \x7b\"kind\": 1, \"tag\": \"s\", \"is_removed\": true, \"variants\": [
            [\"x\"], \x7b\"is_removed\": true, \"tag\": \"y\"\x7d]\x7d]\x7d,
        [\"permutation\", \"v2\", \"v1\", [\"a\"], [[\"product\", \"b\"]], [
          \x7b\"tag\": \"s\", \"removed_variants\": [\"x\"], \"added_variants\": [
            \x7b\"is_removed\": true, \"tag\": \"z\"\x7d]\x7d]],
        [\"transform\", \"up\", \"v1\", \"v2\"]]"
    let a : ProductType := { tag := "a" }
    let x : ProductType := { tag := "x" }
    let y : ProductType := { tag := "y" }
    let ds : List Declaration := [
      domain { tag := "v1", userTypes := [.product a, .sum { tag := "s", variants := [x, y] }] },
      permutation
        { tag := "v2", base := "v1", excluded := NameSet.empty.insert "a",
          included := [.user (.product { tag := "b" })],
          sumEdits := [{ tag := "s", removed := ["x"], added := [{ tag := "z" }] }] },
      transform ⟨"up", "v1", "v2", Origin.blank⟩]
    parse text = .ok ds ∧ (∃ text', print ds = .ok text' ∧ parse text' = .ok ds) ∧
      ∃ s, ofDeclarations ds = .ok s ∧
        (∀ tag d, s.domains.get? tag = some d → d.unmarked = d) ∧
        s.transforms.map Transform.delta =
          [{ tag := "v1",
             userTypes := [.product a.markRemoved,
               .sum { tag := "s", variants := [x.markRemoved, y] }] }] := by
  intro text a x y ds
  have hparse : parse text = .ok ds := by
    refine (Format.parse_ofList _ _).trans ?_
    decide +kernel
  have hdelta : (ofDeclarations ds).map (fun s => s.transforms.map Transform.delta) = .ok
      [{ tag := "v1",
         userTypes := [.product a.markRemoved,
           .sum { tag := "s", variants := [x.markRemoved, y] }] }] := by
    decide +kernel
  obtain ⟨-, -, hprint, s, hs, hdomains, -⟩ := resolution_of_parsed hparse
  rw [hs] at hdelta
  exact ⟨hparse, hprint, s, hs, fun tag d hd => (hdomains tag d hd).1, Except.ok.inj hdelta⟩

end Resolution

end VersionedTypes
