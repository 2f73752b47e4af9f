import Mathlib.Algebra.GroupWithZero.Nat
import Mathlib.Data.Finset.Card
import Mathlib.Data.List.Perm.Basic
import VersionedTypes.Proofs.Validation

/-!
# What validation reports

Validation works through a domain with the names it has seen. What it reports is, up to order, one
mistake for each type, variant and field whose name was there before, at the later one of the two,
and one for each field without a type. No mistake is lost and none is reported twice.

* `IsRepeat`, **`mem_repeats_iff`**, `card_add_length_repeats`: which members of a list are repeats,
  and how many;
* `perm_of_walk`: a walk through a list that reports repeats on its way;
* `Domain.sums`, `Domain.products`: all sums and products of a domain;
* **`Domain.errors_perm`**: the mistakes in a domain, sorted by what they are about;
* `Rule`, `ValidationProblem.rule`: the rule that a mistake breaks;
* `Domain.HasMistake`, `Domain.mem_errors_iff`: the places at which a domain has mistakes;
* **`Domain.errors_exact`**: which mistakes are reported, how many, and in which order.
-/

namespace VersionedTypes

/-! ## Repeats -/

section Repeats

variable {α ε : Type} {key : α → String} {seen : List String} {x y : α} {xs : List α}

/-- A member whose key was seen before, or that stands behind a member of its key. -/
def IsRepeat (key : α → String) (seen : List String) (xs : List α) (x : α) : Prop :=
  ∃ done rest, xs = done ++ x :: rest ∧ (key x ∈ seen ∨ key x ∈ done.map key)

theorem not_isRepeat_nil : ¬ IsRepeat key seen [] x := by
  rintro ⟨done, rest, h, -⟩
  simp at h

/-- A repeat is the first member, or it is one among the others, the first being seen. -/
theorem isRepeat_cons :
    IsRepeat key seen (y :: xs) x ↔
      x = y ∧ key y ∈ seen ∨ IsRepeat key (key y :: seen) xs x := by
  constructor
  · rintro ⟨_ | ⟨z, done⟩, rest, h, hx⟩
    · obtain ⟨rfl, rfl⟩ := List.cons.inj h
      exact Or.inl ⟨rfl, hx.resolve_right List.not_mem_nil⟩
    · obtain ⟨rfl, rfl⟩ := List.cons.inj h
      refine Or.inr ⟨done, rest, rfl, ?_⟩
      rw [List.map_cons, List.mem_cons] at hx
      rw [List.mem_cons, or_assoc, or_left_comm]
      exact hx
  · rintro (⟨rfl, hx⟩ | ⟨done, rest, rfl, hx⟩)
    · exact ⟨[], xs, rfl, Or.inl hx⟩
    · refine ⟨y :: done, rest, rfl, ?_⟩
      rw [List.mem_cons, or_assoc, or_left_comm] at hx
      rw [List.map_cons, List.mem_cons]
      exact hx

theorem IsRepeat.mem (h : IsRepeat key seen xs x) : x ∈ xs := by
  obtain ⟨done, rest, rfl, -⟩ := h
  simp

theorem isRepeat_append {front back : List α} :
    IsRepeat key seen (front ++ back) x ↔
      IsRepeat key seen front x ∨ IsRepeat key (seen ++ front.map key) back x := by
  constructor
  · rintro ⟨done, rest, h, hx⟩
    rcases List.append_eq_append_iff.mp h with ⟨mid, rfl, rfl⟩ | ⟨mid, rfl, hback⟩
    · refine Or.inr ⟨mid, rest, rfl, ?_⟩
      rwa [List.map_append, List.mem_append, ← or_assoc, ← List.mem_append] at hx
    · rcases List.cons_eq_append_iff.mp hback with ⟨rfl, rfl⟩ | ⟨mid, rfl, rfl⟩
      · refine Or.inr ⟨[], rest, rfl, Or.inl ?_⟩
        rwa [List.append_nil, List.mem_append]
      · exact Or.inl ⟨done, mid, rfl, hx⟩
  · rintro (⟨done, rest, rfl, hx⟩ | ⟨done, rest, rfl, hx⟩)
    · exact ⟨done, rest ++ back, by simp, hx⟩
    · refine ⟨front ++ done, rest, by simp, ?_⟩
      rwa [List.map_append, List.mem_append, ← or_assoc, ← List.mem_append]

theorem repeats_cons_of_mem {k : String} (h : k ∈ seen) :
    repeats key (k :: seen) xs = repeats key seen xs := by
  have hcongr : ∀ {seen seen' : List String}, (∀ k, k ∈ seen ↔ k ∈ seen') →
      repeats key seen xs = repeats key seen' xs := by
    induction xs with
    | nil => exact fun _ => rfl
    | cons x xs ih =>
      intro seen seen' hs
      have hcons : ∀ k, k ∈ key x :: seen ↔ k ∈ key x :: seen' := fun k => by
        rw [List.mem_cons, List.mem_cons, hs]
      simp only [repeats, hs, ih hs, ih hcons]
  refine hcongr fun k' => ?_
  rw [List.mem_cons, or_iff_right_iff_imp]
  rintro rfl
  exact h

/-- **The repeats of a list.** -/
theorem mem_repeats_iff : x ∈ repeats key seen xs ↔ IsRepeat key seen xs x := by
  induction xs generalizing seen with
  | nil => exact iff_of_false List.not_mem_nil not_isRepeat_nil
  | cons y ys ih =>
    rw [isRepeat_cons, ← ih, repeats]
    by_cases h : key y ∈ seen
    · rw [if_pos h, List.mem_cons, repeats_cons_of_mem h]
      simp [h]
    · rw [if_neg h]
      simp [h]

theorem fresh_iff_forall_not_isRepeat : Fresh key seen xs ↔ ∀ x, ¬ IsRepeat key seen xs x := by
  rw [← repeats_eq_nil_iff, List.eq_nil_iff_forall_not_mem]
  exact forall_congr' fun _ => not_congr mem_repeats_iff

/-- A member is a repeat, or it is the only one that counts of its key. -/
theorem card_add_length_repeats :
    ((xs.map key).toFinset \ seen.toFinset).card + (repeats key seen xs).length = xs.length := by
  induction xs generalizing seen with
  | nil => simp [repeats]
  | cons x xs ih =>
    rw [List.map_cons, List.toFinset_cons, repeats, List.length_cons]
    by_cases h : key x ∈ seen
    · rw [if_pos h, Finset.insert_sdiff_of_mem _ (List.mem_toFinset.mpr h), List.length_cons,
        ← Nat.add_assoc, ih]
    · have hx : key x ∉ (xs.map key).toFinset \ (key x :: seen).toFinset := by simp
      have hinsert : insert (key x) (xs.map key).toFinset \ seen.toFinset =
          insert (key x) ((xs.map key).toFinset \ (key x :: seen).toFinset) := by
        ext k
        by_cases hk : k = key x <;> simp [hk, h]
      rw [if_neg h, hinsert, Finset.card_insert_of_notMem hx, Nat.add_right_comm, ih]

theorem length_repeats : (repeats key seen xs).length =
    xs.length - ((xs.map key).toFinset \ seen.toFinset).card := by
  have hcard : ((xs.map key).toFinset \ seen.toFinset).card + (repeats key seen xs).length =
      xs.length := card_add_length_repeats
  omega

/-- **A walk that reports a repeat in front of what else it finds in a member** reports, up to
order, all repeats and all else that it finds. -/
theorem perm_of_walk {walk : List String → List α → List ε} {report : α → ε} {find : α → List ε}
    (hnil : ∀ seen, walk seen [] = [])
    (hcons : ∀ seen x xs, walk seen (x :: xs) =
      (if key x ∈ seen then [report x] else []) ++ find x ++ walk (key x :: seen) xs)
    (seen : List String) (xs : List α) :
    (walk seen xs).Perm ((repeats key seen xs).map report ++ xs.flatMap find) := by
  induction xs generalizing seen with
  | nil => rw [hnil]; exact .nil
  | cons x xs ih =>
    have hrest := (ih (key x :: seen)).append_left (find x)
    have hfind := hrest.trans (List.perm_append_comm_assoc _ _ _)
    rw [hcons, repeats, List.flatMap_cons, List.append_assoc]
    by_cases h : key x ∈ seen
    · rw [repeats_cons_of_mem h] at hfind
      rw [if_pos h, if_pos h]
      exact hfind.cons _
    · rw [if_neg h, if_neg h]
      exact hfind

end Repeats

/-! ## The parts of a domain -/

/-- The sums that a type is made of: itself, if it is one. -/
def UserType.sums : UserType → List SumType
  | .product _ => []
  | .sum s => [s]

/-- The variants that an earlier variant of the sum has the tag of. -/
def SumType.repeatErrors (s : SumType) : List ValidationError :=
  (repeats ProductType.tag [] s.variants).map fun v => ⟨.duplicateVariant s.tag v.tag, v.origin⟩

/-- The fields that an earlier field of the product has the name of. -/
def ProductType.repeatErrors (p : ProductType) : List ValidationError :=
  (repeats Field.name [] p.fields).map fun f => ⟨.duplicateField p.tag f.name, f.origin⟩

namespace Domain

variable {d : Domain} {s : SumType} {p : ProductType} {e : ValidationError}

instance (d : Domain) (name : String) : Decidable (d.Names name) := by
  unfold Names; infer_instance

/-- All sums of a domain. -/
def sums (d : Domain) : List SumType := d.userTypes.flatMap UserType.sums

/-- All products of a domain: those among its types, and the variants of its sums. -/
def products (d : Domain) : List ProductType := d.userTypes.flatMap UserType.products

/-- All fields of a domain whose type it does not have. -/
def danglingFields (d : Domain) : List Field :=
  (d.products.flatMap ProductType.fields).filter fun f => ¬ d.Names f.type.typeName

/-- The mistake of a field whose type the domain does not have. -/
def danglingError (d : Domain) (f : Field) : ValidationError :=
  ⟨.undefinedReference d.tag f.type.typeName, f.type.origin⟩

theorem mem_sums : s ∈ d.sums ↔ .sum s ∈ d.userTypes := by
  constructor
  · intro h
    obtain ⟨t, ht, hs⟩ := List.mem_flatMap.mp h
    cases t with
    | product p => cases hs
    | sum a => exact List.mem_singleton.mp hs ▸ ht
  · exact fun h => List.mem_flatMap.mpr ⟨_, h, List.mem_singleton_self s⟩

theorem mem_products : p ∈ d.products ↔ .product p ∈ d.userTypes ∨ ∃ s ∈ d.sums, p ∈ s.variants := by
  constructor
  · intro h
    obtain ⟨t, ht, hp⟩ := List.mem_flatMap.mp h
    cases t with
    | product q => exact Or.inl (List.mem_singleton.mp hp ▸ ht)
    | sum s => exact Or.inr ⟨s, mem_sums.mpr ht, hp⟩
  · rintro (h | ⟨s, hs, hp⟩)
    · exact List.mem_flatMap.mpr ⟨_, h, List.mem_singleton_self p⟩
    · exact List.mem_flatMap.mpr ⟨_, mem_sums.mp hs, hp⟩

/-! ## The mistakes, sorted -/

theorem flatMap_referenceErrors (fs : List Field) :
    fs.flatMap d.referenceErrors =
      (fs.filter fun f => ¬ d.Names f.type.typeName).map d.danglingError := by
  induction fs with
  | nil => rfl
  | cons f fs ih =>
    rw [List.flatMap_cons, ih, referenceErrors]
    by_cases h : d.Names f.type.typeName
    · rw [if_pos (isSome_get?_iff.mpr h), List.filter_cons_of_neg (by simpa using h)]
      rfl
    · rw [if_neg (mt isSome_get?_iff.mp h), List.filter_cons_of_pos (by simpa using h)]
      rfl

theorem productErrors_perm (p : ProductType) :
    (d.productErrors p).Perm (p.repeatErrors ++ p.fields.flatMap d.referenceErrors) :=
  perm_of_walk (fun _ => rfl) (fun _ _ _ => rfl) [] p.fields

theorem errorsWithin_perm (t : UserType) :
    (d.errorsWithin t).Perm (t.sums.flatMap SumType.repeatErrors ++
      t.products.flatMap fun p => p.repeatErrors ++ p.fields.flatMap d.referenceErrors) := by
  cases t with
  | product p => simpa [UserType.sums, UserType.products, errorsWithin] using productErrors_perm p
  | sum s =>
    have hwalk : (d.variantErrors s.tag [] s.variants).Perm
        (s.repeatErrors ++ s.variants.flatMap d.productErrors) :=
      perm_of_walk (fun _ => rfl) (fun _ _ _ => rfl) [] s.variants
    have hvariants := List.Perm.flatMap_left s.variants fun v _ => productErrors_perm (d := d) v
    simpa [UserType.sums, UserType.products, errorsWithin] using
      hwalk.trans (hvariants.append_left _)

/-- **The mistakes in a domain**, up to order: the types, the variants and the fields that are
repeats, and the fields without a type. -/
theorem errors_perm (d : Domain) :
    d.errors.Perm (d.typeErrors ++ (d.sums.flatMap SumType.repeatErrors ++
      (d.products.flatMap ProductType.repeatErrors ++ d.danglingFields.map d.danglingError))) := by
  have hdangling : d.products.flatMap (fun p => p.fields.flatMap d.referenceErrors) =
      d.danglingFields.map d.danglingError := by
    rw [← List.flatMap_assoc, flatMap_referenceErrors]
    rfl
  have hproducts : (d.products.flatMap fun p =>
      p.repeatErrors ++ p.fields.flatMap d.referenceErrors).Perm
        (d.products.flatMap ProductType.repeatErrors ++ d.danglingFields.map d.danglingError) := by
    rw [← hdangling]
    exact (List.flatMap_append_perm _ _ _).symm
  have hwithin : (d.userTypes.flatMap d.errorsWithin).Perm (d.sums.flatMap SumType.repeatErrors ++
      d.products.flatMap fun p => p.repeatErrors ++ p.fields.flatMap d.referenceErrors) := by
    rw [sums, products, List.flatMap_assoc, List.flatMap_assoc]
    refine (List.Perm.flatMap_left _ fun t _ => errorsWithin_perm t).trans ?_
    exact (List.flatMap_append_perm _ _ _).symm
  exact (hwithin.trans (hproducts.append_left _)).append_left _

/-! ## The places of mistakes -/

/-- The mistakes that a domain has. -/
inductive HasMistake (d : Domain) : ValidationError → Prop
  | type {t : UserType} (h : IsRepeat UserType.tag Builtin.tags d.userTypes t) :
    HasMistake d ⟨.duplicateType d.tag t.tag, t.origin⟩
  | variant {s : SumType} {v : ProductType} (hs : s ∈ d.sums)
      (h : IsRepeat ProductType.tag [] s.variants v) :
    HasMistake d ⟨.duplicateVariant s.tag v.tag, v.origin⟩
  | field {p : ProductType} {f : Field} (hp : p ∈ d.products)
      (h : IsRepeat Field.name [] p.fields f) :
    HasMistake d ⟨.duplicateField p.tag f.name, f.origin⟩
  | reference {p : ProductType} {f : Field} (hp : p ∈ d.products) (hf : f ∈ p.fields)
      (h : ¬ d.Names f.type.typeName) :
    HasMistake d ⟨.undefinedReference d.tag f.type.typeName, f.type.origin⟩

/-- **The mistakes that a domain has are reported**, and no others. -/
theorem mem_errors_iff : e ∈ d.errors ↔ d.HasMistake e := by
  rw [(errors_perm d).mem_iff]
  simp only [List.mem_append, typeErrors, SumType.repeatErrors, ProductType.repeatErrors,
    danglingFields, List.mem_flatMap, List.mem_map, List.mem_filter, mem_repeats_iff,
    decide_eq_true_eq]
  constructor
  · rintro (⟨t, h, rfl⟩ | ⟨s, hs, v, h, rfl⟩ | ⟨p, hp, f, h, rfl⟩ | ⟨f, ⟨⟨p, hp, hf⟩, h⟩, rfl⟩)
    · exact .type h
    · exact .variant hs h
    · exact .field hp h
    · exact .reference hp hf h
  · rintro (h | ⟨hs, h⟩ | ⟨hp, h⟩ | ⟨hp, hf, h⟩)
    · exact Or.inl ⟨_, h, rfl⟩
    · exact Or.inr (Or.inl ⟨_, hs, _, h, rfl⟩)
    · exact Or.inr (Or.inr (Or.inl ⟨_, hp, _, h, rfl⟩))
    · exact Or.inr (Or.inr (Or.inr ⟨_, ⟨⟨_, hp, hf⟩, h⟩, rfl⟩))

/-! ## Counting -/

theorem wellFormed_iff : d.WellFormed ↔
    (d.userTypes.map UserType.tag).Nodup ∧ (∀ t ∈ d.userTypes, t.tag ∉ Builtin.tags) ∧
      (∀ s ∈ d.sums, (s.variants.map ProductType.tag).Nodup) ∧
        ∀ p ∈ d.products, d.ProductWellFormed p := by
  refine and_congr_right fun _ => and_congr_right fun _ => ⟨fun h => ⟨?_, ?_⟩, ?_⟩
  · exact fun s hs => (h _ (mem_sums.mp hs)).1
  · intro p hp
    rcases mem_products.mp hp with hp | ⟨s, hs, hp⟩
    · exact h _ hp
    · exact (h _ (mem_sums.mp hs)).2 p hp
  · rintro ⟨hsums, hproducts⟩ (p | s) ht
    · exact hproducts p (mem_products.mpr (Or.inl ht))
    · have hs := mem_sums.mpr ht
      exact ⟨hsums s hs, fun v hv => hproducts v (mem_products.mpr (Or.inr ⟨s, hs, hv⟩))⟩

end Domain

/-- What a domain or a request has to keep to. -/
inductive Rule where
  | uniqueDomain
  | uniqueType
  | uniqueVariant
  | uniqueField
  | definedType
  | definedDomain
  deriving DecidableEq

/-- The rule that is broken. -/
def ValidationProblem.rule : ValidationProblem → Rule
  | duplicateDomain _ => .uniqueDomain
  | duplicateType _ _ => .uniqueType
  | duplicateVariant _ _ => .uniqueVariant
  | duplicateField _ _ => .uniqueField
  | undefinedReference _ _ => .definedType
  | undefinedDomain _ _ => .definedDomain

theorem countP_rule {es : List ValidationError} {r r' : Rule}
    (h : ∀ e ∈ es, e.problem.rule = r') :
    es.countP (·.problem.rule = r) = if r' = r then es.length else 0 := by
  split
  · next hr => exact List.countP_eq_length.mpr fun e he => by simpa [h e he] using hr
  · next hr => exact List.countP_eq_zero.mpr fun e he => by simpa [h e he] using hr

namespace Domain

variable {d : Domain}

theorem rule_of_mem_typeErrors {e : ValidationError} (h : e ∈ d.typeErrors) :
    e.problem.rule = .uniqueType := by
  obtain ⟨t, -, rfl⟩ := List.mem_map.mp h
  rfl

theorem rule_of_mem_sums {e : ValidationError} (h : e ∈ d.sums.flatMap SumType.repeatErrors) :
    e.problem.rule = .uniqueVariant := by
  obtain ⟨s, -, he⟩ := List.mem_flatMap.mp h
  obtain ⟨v, -, rfl⟩ := List.mem_map.mp he
  rfl

theorem rule_of_mem_products {e : ValidationError}
    (h : e ∈ d.products.flatMap ProductType.repeatErrors) : e.problem.rule = .uniqueField := by
  obtain ⟨p, -, he⟩ := List.mem_flatMap.mp h
  obtain ⟨f, -, rfl⟩ := List.mem_map.mp he
  rfl

theorem rule_of_mem_dangling {e : ValidationError} (h : e ∈ d.danglingFields.map d.danglingError) :
    e.problem.rule = .definedType := by
  obtain ⟨f, -, rfl⟩ := List.mem_map.mp h
  rfl

theorem countP_errors (r : Rule) :
    d.errors.countP (·.problem.rule = r) =
      (if .uniqueType = r then d.typeErrors.length else 0) +
      ((if .uniqueVariant = r then (d.sums.flatMap SumType.repeatErrors).length else 0) +
      ((if .uniqueField = r then (d.products.flatMap ProductType.repeatErrors).length else 0) +
        if .definedType = r then d.danglingFields.length else 0)) := by
  rw [(errors_perm d).countP_eq, List.countP_append, List.countP_append, List.countP_append,
    countP_rule fun _ => rule_of_mem_typeErrors, countP_rule fun _ => rule_of_mem_sums,
    countP_rule fun _ => rule_of_mem_products, countP_rule fun _ => rule_of_mem_dangling,
    List.length_map]

theorem length_typeErrors : d.typeErrors.length = d.userTypes.length -
    ((d.userTypes.map UserType.tag).toFinset \ Builtin.tags.toFinset).card := by
  rw [typeErrors, List.length_map, length_repeats]

theorem length_repeatErrors_sums : (d.sums.flatMap SumType.repeatErrors).length =
    (d.sums.map fun s =>
      s.variants.length - (s.variants.map ProductType.tag).toFinset.card).sum := by
  rw [List.length_flatMap]
  congr 1
  refine List.map_congr_left fun s _ => ?_
  rw [SumType.repeatErrors, List.length_map, length_repeats, List.toFinset_nil, Finset.sdiff_empty]

theorem length_repeatErrors_products : (d.products.flatMap ProductType.repeatErrors).length =
    (d.products.map fun p =>
      p.fields.length - (p.fields.map Field.name).toFinset.card).sum := by
  rw [List.length_flatMap]
  congr 1
  refine List.map_congr_left fun p _ => ?_
  rw [ProductType.repeatErrors, List.length_map, length_repeats, List.toFinset_nil,
    Finset.sdiff_empty]

theorem rule_of_mem_errorsWithin {t : UserType} {e : ValidationError} (h : e ∈ d.errorsWithin t) :
    e.problem.rule ≠ .uniqueType := by
  rw [(errorsWithin_perm t).mem_iff] at h
  simp only [List.mem_append, List.mem_flatMap, SumType.repeatErrors, ProductType.repeatErrors,
    List.mem_map, referenceErrors] at h
  rcases h with ⟨s, -, v, -, rfl⟩ | ⟨p, -, ⟨f, -, rfl⟩ | ⟨f, -, he⟩⟩
  · exact nofun
  · exact nofun
  · split at he
    · cases he
    · cases List.mem_singleton.mp he
      exact nofun

/-- **Duplicate types come first.** -/
theorem errors_eq_append_filter :
    d.errors = d.errors.filter (·.problem.rule = .uniqueType) ++
      d.errors.filter (·.problem.rule ≠ .uniqueType) := by
  have htypes : ∀ e ∈ d.typeErrors, e.problem.rule = .uniqueType := fun _ => rule_of_mem_typeErrors
  have hwithin : ∀ e ∈ d.userTypes.flatMap d.errorsWithin, e.problem.rule ≠ .uniqueType := by
    intro e he
    obtain ⟨t, -, he⟩ := List.mem_flatMap.mp he
    exact rule_of_mem_errorsWithin he
  have hfront : d.errors.filter (·.problem.rule = .uniqueType) = d.typeErrors := by
    rw [errors, List.filter_append, List.filter_eq_self.mpr (by simpa using htypes),
      List.filter_eq_nil_iff.mpr (by simpa using hwithin), List.append_nil]
  have hback : d.errors.filter (·.problem.rule ≠ .uniqueType) =
      d.userTypes.flatMap d.errorsWithin := by
    rw [errors, List.filter_append, List.filter_eq_nil_iff.mpr (by simpa using htypes),
      List.filter_eq_self.mpr (by simpa using hwithin), List.nil_append]
  rw [hfront, hback]
  rfl

/-- **Validation is sound and complete, and loses nothing.** No mistake is reported exactly if the
tags of the declared types are distinct and not those of builtins, the variants of each sum and the
fields of each product have distinct names, and every field has a type of the domain. There are as
many duplicate types as declared types beyond the distinct tags that are not those of builtins, as
many duplicate variants and fields as there are beyond the distinct names of each sum and of each
product, and as many undefined references as fields whose type the domain does not have. Each
mistake stands at the later type, variant or field of a name, or at the reference, and duplicate
types come in front of all others. -/
theorem errors_exact (d : Domain) :
    (d.errors = [] ↔
      (d.userTypes.map UserType.tag).Nodup ∧ (∀ t ∈ d.userTypes, t.tag ∉ Builtin.tags) ∧
        (∀ s ∈ d.sums, (s.variants.map ProductType.tag).Nodup) ∧
        ∀ p ∈ d.products, (p.fields.map Field.name).Nodup ∧
          ∀ f ∈ p.fields, d.Names f.type.typeName) ∧
    d.errors.countP (·.problem.rule = .uniqueType) = d.userTypes.length -
      ((d.userTypes.map UserType.tag).toFinset \ Builtin.tags.toFinset).card ∧
    d.errors.countP (·.problem.rule = .uniqueVariant) = (d.sums.map fun s =>
      s.variants.length - (s.variants.map ProductType.tag).toFinset.card).sum ∧
    d.errors.countP (·.problem.rule = .uniqueField) = (d.products.map fun p =>
      p.fields.length - (p.fields.map Field.name).toFinset.card).sum ∧
    d.errors.countP (·.problem.rule = .definedType) =
      (d.products.flatMap ProductType.fields).countP (fun f => ¬ d.Names f.type.typeName) ∧
    (∀ e, e ∈ d.errors ↔ d.HasMistake e) ∧
    d.errors = d.errors.filter (·.problem.rule = .uniqueType) ++
      d.errors.filter (·.problem.rule ≠ .uniqueType) := by
  refine ⟨errors_eq_nil_iff.trans wellFormed_iff, ?_, ?_, ?_, ?_, fun _ => mem_errors_iff,
    errors_eq_append_filter⟩
  · simp [countP_errors, length_typeErrors]
  · simp [countP_errors, ← length_repeatErrors_sums]
  · simp [countP_errors, ← length_repeatErrors_products]
  · simp [countP_errors, danglingFields, ← List.countP_eq_length_filter]

/-- A type under the tag of a builtin, a tag that is declared twice, a variant and a field that
repeat a name, and a field without a type. -/
example :
    let f (name typeName : String) (line : UInt32) : Field :=
      { name, type := { typeName, origin := .ofPosition ⟨line, 9, 0⟩ },
        origin := .ofPosition ⟨line, 1, 0⟩ }
    let a : ProductType := { tag := "a", fields := [f "x" "int" 1, f "x" "gone" 2] }
    let d : Domain :=
      { tag := "v1", userTypes := [.product a, .sum { tag := "s", variants := [a, { tag := "a" }] },
          .product { tag := "a" }, .product { tag := "int" }] }
    d.errors.map (·.problem) =
      [.duplicateType "v1" "a", .duplicateType "v1" "int", .duplicateField "a" "x",
        .undefinedReference "v1" "gone", .duplicateField "a" "x", .undefinedReference "v1" "gone",
        .duplicateVariant "s" "a"] := by decide

end Domain

end VersionedTypes
