import Mathlib.Data.List.Induction
import Mathlib.Data.List.Nodup
import VersionedTypes.Ordered

/-!
# Tables that grow, and tables made of lists

* `OrderedMap.get?_of_isPrefix`: a table that only grows at its end keeps its values;
* `OrderedMap.mem_keys_ofList`, `OrderedMap.mem_of_get?_ofList`: a table made of a list has the keys
  of the list, each with a value that the list gives it;
* `OrderedMap.get?_ofList_of_nodup`: of a list without repeated keys it has every pair;
* `OrderedMap.get?_ofList`: of the pairs with one key it has the last one;
* **`OrderedMap.ofList_entries`**, `NameSet.ofList_names`: a table is made of its entries, and a set
  of its names;
* `OrderedMap.map`, `OrderedMap.get?_map`, `OrderedMap.insert_map`: a table with other values.
-/

namespace VersionedTypes

namespace OrderedMap

variable {β : Type} {m m' : OrderedMap β} {key : String} {value : β} {pairs : List (String × β)}

theorem get?_of_isPrefix (h : m.entries <+: m'.entries) (hv : m.get? key = some value) :
    m'.get? key = some value :=
  get?_eq_some_iff.mpr (h.subset (get?_eq_some_iff.mp hv))

theorem entries_insert_of_get?_eq_none (h : m.get? key = none) :
    (m.insert key value).entries = m.entries ++ [(key, value)] :=
  entries_insert_of_not_mem (get?_eq_none_iff.mp h)

theorem mem_keys_foldl_insert :
    key ∈ (pairs.foldl (fun m p => m.insert p.1 p.2) m).keys ↔
      key ∈ m.keys ∨ key ∈ pairs.map Prod.fst := by
  induction pairs generalizing m with
  | nil => simp
  | cons p ps ih =>
    rw [List.foldl_cons, ih, mem_keys_insert, List.map_cons, List.mem_cons]
    grind

theorem mem_of_get?_foldl_insert
    (h : (pairs.foldl (fun m p => m.insert p.1 p.2) m).get? key = some value) :
    m.get? key = some value ∨ (key, value) ∈ pairs := by
  induction pairs generalizing m with
  | nil => exact Or.inl h
  | cons p ps ih =>
    rcases ih h with h' | h'
    · rw [get?_insert] at h'
      split at h'
      · next hk =>
        cases h'
        exact Or.inr (hk ▸ List.mem_cons_self)
      · exact Or.inl h'
    · exact Or.inr (List.mem_cons_of_mem _ h')

theorem mem_keys_ofList : key ∈ (ofList pairs).keys ↔ key ∈ pairs.map Prod.fst := by
  rw [ofList, mem_keys_foldl_insert, keys_empty, List.mem_nil_iff, false_or]

theorem mem_of_get?_ofList (h : (ofList pairs).get? key = some value) : (key, value) ∈ pairs := by
  rcases mem_of_get?_foldl_insert h with h | h
  · rw [get?_empty] at h; cases h
  · exact h

theorem get?_ofList_of_nodup (hn : (pairs.map Prod.fst).Nodup) (h : (key, value) ∈ pairs) :
    (ofList pairs).get? key = some value := by
  have hk : key ∈ (ofList pairs).keys := mem_keys_ofList.mpr (List.mem_map_of_mem h)
  cases hv : (ofList pairs).get? key with
  | none => exact absurd hk (get?_eq_none_iff.mp hv)
  | some v =>
    have := List.inj_on_of_nodup_map hn h (mem_of_get?_ofList hv) (Eq.refl key)
    cases this
    rfl

theorem get?_ofList :
    (ofList pairs).get? key = (pairs.reverse.find? (·.1 == key)).map Prod.snd := by
  induction pairs using List.reverseRecOn with
  | nil => rfl
  | append_singleton ps p ih =>
    have hlast : ofList (ps ++ [p]) = (ofList ps).insert p.1 p.2 := by
      rw [ofList, List.foldl_append]
      rfl
    rw [hlast, get?_insert, ih, List.reverse_concat, List.find?_cons]
    by_cases hk : key = p.1
    · simp [hk]
    · simp [hk, beq_eq_false_iff_ne.mpr (Ne.symm hk)]

theorem entries_ofList (hn : (pairs.map Prod.fst).Nodup) : (ofList pairs).entries = pairs := by
  induction pairs using List.reverseRecOn with
  | nil => rfl
  | append_singleton ps p ih =>
    rw [List.map_append, List.nodup_append'] at hn
    have hp : p.1 ∉ (ofList ps).keys := fun h =>
      hn.2.2 (mem_keys_ofList.mp h) (List.mem_singleton_self _)
    rw [ofList, List.foldl_append]
    exact (entries_insert_of_not_mem hp).trans (congrArg (· ++ [p]) (ih hn.1))

theorem eq_of_entries_eq (h : m.entries = m'.entries) : m = m' := by
  cases m
  cases m'
  cases h
  rfl

/-- **A table is made of its entries.** -/
theorem ofList_entries (m : OrderedMap β) : ofList m.entries = m :=
  eq_of_entries_eq (entries_ofList m.nodup)

/-! ### Other values -/

section Map

variable {γ : Type} (g : β → γ) (m : OrderedMap β)

/-- The table with `g` applied to every value. -/
def map : OrderedMap γ :=
  ⟨m.entries.map fun e => (e.1, g e.2), by rw [List.map_map]; exact m.nodup⟩

theorem entries_map : (m.map g).entries = m.entries.map fun e => (e.1, g e.2) := rfl

theorem keys_map : (m.map g).keys = m.keys := by
  rw [keys, map, List.map_map]
  rfl

theorem values_map : (m.map g).values = m.values.map g := by
  rw [values, values, map, List.map_map, List.map_map]
  rfl

theorem get?_map (key : String) : (m.map g).get? key = (m.get? key).map g := by
  rw [get?, get?, map, List.find?_map, Option.map_map, Option.map_map]
  rfl

theorem insert_map (key : String) (value : β) :
    (m.map g).insert key (g value) = (m.insert key value).map g := by
  apply eq_of_entries_eq
  by_cases hk : key ∈ m.keys
  · have hk' : key ∈ (m.map g).keys := keys_map g m ▸ hk
    rw [entries_insert_of_mem hk', entries_map, entries_map, entries_insert_of_mem hk,
      replaceEntries, replaceEntries, List.map_map, List.map_map]
    refine List.map_congr_left fun e _ => ?_
    simp only [Function.comp_apply]
    split <;> rfl
  · have hk' : key ∉ (m.map g).keys := keys_map g m ▸ hk
    rw [entries_insert_of_not_mem hk', entries_map, entries_map, entries_insert_of_not_mem hk,
      List.map_append]
    rfl

end Map

end OrderedMap

namespace NameSet

theorem names_ofList {names : List String} (hn : names.Nodup) : (ofList names).names = names := by
  induction names using List.reverseRecOn with
  | nil => rfl
  | append_singleton ns n ih =>
    rw [List.nodup_append'] at hn
    have hname : n ∉ (ofList ns).names := fun h =>
      hn.2.2 (mem_ofList.mp h) (List.mem_singleton_self _)
    rw [ofList, List.foldl_append]
    exact names_insert.trans ((if_neg hname).trans (congrArg (· ++ [n]) (ih hn.1)))

theorem ofList_names (s : NameSet) : ofList s.names = s := by
  have h := names_ofList s.nodup
  generalize ofList s.names = s' at h
  cases s
  cases s'
  cases h
  rfl

end NameSet

end VersionedTypes
