/-!
# Collections that remember insertion order

Tables with text keys and sets of names, both listed in the order in which their members were
first put in. No key is listed twice.

* `OrderedMap`: `get?`, `contains`, `insert` (a known key keeps its place), `erase`, `sorted`,
  `ofList`;
* **`OrderedMap.get?_insert`**, `OrderedMap.keys_insert`, `OrderedMap.get?_eq_some_iff`,
  `OrderedMap.get?_erase`, `OrderedMap.get?_sorted`;
* `NameSet`: `insert` (a known name changes nothing), `ofList`, with `NameSet.mem_ofList`.
-/

namespace VersionedTypes

/-- A table from names to values, in order of first insertion. -/
structure OrderedMap (β : Type) where
  entries : List (String × β)
  nodup : (entries.map Prod.fst).Nodup
  deriving DecidableEq

namespace OrderedMap

variable {β : Type}

/-- The table without entries. -/
def empty : OrderedMap β := ⟨[], List.nodup_nil⟩

instance : Inhabited (OrderedMap β) := ⟨empty⟩

/-- The keys in order. -/
def keys (m : OrderedMap β) : List String := m.entries.map Prod.fst

/-- The values in order of their keys. -/
def values (m : OrderedMap β) : List β := m.entries.map Prod.snd

/-- The value stored under `key`. -/
def get? (m : OrderedMap β) (key : String) : Option β :=
  (m.entries.find? (·.1 == key)).map Prod.snd

/-- Some value is stored under `key`. -/
def contains (m : OrderedMap β) (key : String) : Bool := m.entries.any (·.1 == key)

/-- The number of entries. -/
def size (m : OrderedMap β) : Nat := m.entries.length

/-- The entries with `value` in the place of every value under `key`. -/
def replaceEntries (key : String) (value : β) (entries : List (String × β)) : List (String × β) :=
  entries.map fun e => if e.1 = key then (key, value) else e

theorem keys_replaceEntries (key : String) (value : β) (entries : List (String × β)) :
    (replaceEntries key value entries).map Prod.fst = entries.map Prod.fst := by
  simp only [replaceEntries, List.map_map]
  refine List.map_congr_left fun e _ => ?_
  simp only [Function.comp_apply]
  split
  · next h => exact h.symm
  · rfl

/-- Store `value` under `key`: a known key keeps its place, a new one goes to the end. -/
def insert (m : OrderedMap β) (key : String) (value : β) : OrderedMap β :=
  if h : key ∈ m.entries.map Prod.fst then
    ⟨replaceEntries key value m.entries, by rw [keys_replaceEntries]; exact m.nodup⟩
  else
    ⟨m.entries ++ [(key, value)], by
      rw [List.map_append, List.nodup_append]
      refine ⟨m.nodup, List.pairwise_singleton _ _, fun a ha b hb => ?_⟩
      rw [List.map_singleton, List.mem_singleton] at hb
      exact fun e => h (by rw [e, hb] at ha; exact ha)⟩

/-- Remove the entry under `key`; the others keep their order. -/
def erase (m : OrderedMap β) (key : String) : OrderedMap β :=
  ⟨m.entries.filter (·.1 ≠ key), m.nodup.sublist (List.filter_sublist.map _)⟩

/-- The entries in the order of their keys. Tables with the same entries are the same when sorted. -/
def sorted (m : OrderedMap β) : OrderedMap β :=
  ⟨m.entries.mergeSort fun a b => decide (a.1 ≤ b.1),
    ((List.mergeSort_perm m.entries _).map Prod.fst).nodup_iff.mpr m.nodup⟩

/-- Insert the pairs one after the other. -/
def ofList (pairs : List (String × β)) : OrderedMap β :=
  pairs.foldl (fun m p => m.insert p.1 p.2) empty

/-! ### Entries -/

section Entries

variable {m : OrderedMap β} {key key' : String} {value : β}

@[simp] theorem keys_empty : (empty : OrderedMap β).keys = [] := rfl

@[simp] theorem get?_empty : (empty : OrderedMap β).get? key = none := rfl

theorem entries_insert_of_mem (h : key ∈ m.keys) :
    (m.insert key value).entries = replaceEntries key value m.entries := by
  unfold insert; exact congrArg entries (dif_pos h)

theorem entries_insert_of_not_mem (h : key ∉ m.keys) :
    (m.insert key value).entries = m.entries ++ [(key, value)] := by
  unfold insert; exact congrArg entries (dif_neg h)

/-- A known key keeps its place, a new one comes last. -/
theorem keys_insert :
    (m.insert key value).keys = if key ∈ m.keys then m.keys else m.keys ++ [key] := by
  split
  · next h => rw [keys, entries_insert_of_mem h, keys_replaceEntries]; rfl
  · next h => rw [keys, entries_insert_of_not_mem h, List.map_append]; rfl

@[simp] theorem mem_keys_insert :
    key' ∈ (m.insert key value).keys ↔ key' = key ∨ key' ∈ m.keys := by
  rw [keys_insert]
  split
  · next h => exact ⟨Or.inr, fun h' => h'.elim (fun e => e ▸ h) id⟩
  · rw [List.mem_append, List.mem_singleton, or_comm]

theorem contains_iff : m.contains key = true ↔ key ∈ m.keys := by
  simp [contains, keys]

theorem get?_eq_none_iff : m.get? key = none ↔ key ∉ m.keys := by
  simp only [get?, Option.map_eq_none_iff, List.find?_eq_none, beq_iff_eq, keys, List.mem_map,
    not_exists, not_and]

theorem isSome_get? : (m.get? key).isSome = m.contains key := by
  rw [Bool.eq_iff_iff, contains_iff, ← Option.ne_none_iff_isSome, ne_eq, get?_eq_none_iff,
    Decidable.not_not]

theorem find?_eq_some_of_mem : ∀ {entries : List (String × β)}, (entries.map Prod.fst).Nodup →
    ∀ {e}, e ∈ entries → entries.find? (·.1 == e.1) = some e
  | [], _, _, h => absurd h List.not_mem_nil
  | x :: xs, hn, e, h => by
    rw [List.map_cons, List.nodup_cons] at hn
    rcases List.mem_cons.mp h with rfl | h
    · simp
    · have hx : x.1 ≠ e.1 := fun he => hn.1 (he ▸ List.mem_map_of_mem h)
      rw [List.find?_cons_of_neg (by simpa using hx)]
      exact find?_eq_some_of_mem hn.2 h

theorem get?_eq_some_iff : m.get? key = some value ↔ (key, value) ∈ m.entries := by
  constructor
  · intro h
    obtain ⟨e, he, rfl⟩ := Option.map_eq_some_iff.mp h
    have hk : e.1 = key := by simpa using List.find?_some he
    exact hk ▸ List.mem_of_find?_eq_some he
  · intro h
    simp [get?, find?_eq_some_of_mem m.nodup h]

/-- The value stored last under a key is found under it, and no other is touched. -/
theorem get?_insert :
    (m.insert key value).get? key' = if key' = key then some value else m.get? key' := by
  split
  · next h =>
    subst h
    rw [get?_eq_some_iff]
    by_cases hk : key' ∈ m.keys
    · rw [entries_insert_of_mem hk]
      obtain ⟨e, he, rfl⟩ := List.mem_map.mp hk
      exact List.mem_map.mpr ⟨e, he, if_pos rfl⟩
    · rw [entries_insert_of_not_mem hk]
      exact List.mem_append_right _ (List.mem_singleton_self _)
  · next h =>
    apply Option.ext
    intro v
    rw [get?_eq_some_iff, get?_eq_some_iff]
    by_cases hk : key ∈ m.keys
    · rw [entries_insert_of_mem hk]
      simp only [replaceEntries, List.mem_map]
      constructor
      · rintro ⟨e, he, hv⟩
        split at hv
        · exact absurd (congrArg Prod.fst hv).symm h
        · exact hv ▸ he
      · exact fun he => ⟨_, he, if_neg h⟩
    · simp [entries_insert_of_not_mem hk, h]

theorem keys_erase : (m.erase key).keys = m.keys.filter (· ≠ key) := by
  simp only [keys, erase, List.filter_map]
  rfl

theorem get?_erase : (m.erase key).get? key' = if key' = key then none else m.get? key' := by
  split
  · next h => rw [get?_eq_none_iff, keys_erase, h]; simp
  · next h =>
    apply Option.ext
    intro v
    rw [get?_eq_some_iff, get?_eq_some_iff]
    simp [erase, h]

@[simp] theorem get?_sorted : m.sorted.get? key = m.get? key := by
  apply Option.ext
  intro v
  rw [get?_eq_some_iff, get?_eq_some_iff]
  exact (List.mergeSort_perm m.entries _).mem_iff

end Entries

end OrderedMap

/-- A set of names, in order of first insertion. -/
structure NameSet where
  names : List String
  nodup : names.Nodup
  deriving DecidableEq

namespace NameSet

/-- The set without names. -/
def empty : NameSet := ⟨[], List.nodup_nil⟩

instance : Inhabited NameSet := ⟨empty⟩

/-- Put `name` at the end, unless the set has it. -/
def insert (s : NameSet) (name : String) : NameSet :=
  if h : name ∈ s.names then s
  else
    ⟨s.names ++ [name], by
      rw [List.nodup_append]
      refine ⟨s.nodup, List.pairwise_singleton _ _, fun a ha b hb => ?_⟩
      rw [List.mem_singleton] at hb
      exact fun e => h (by rw [← hb, ← e]; exact ha)⟩

/-- Insert the names one after the other. -/
def ofList (names : List String) : NameSet := names.foldl insert empty

theorem names_insert {s : NameSet} {name : String} :
    (s.insert name).names = if name ∈ s.names then s.names else s.names ++ [name] := by
  unfold insert
  split <;> rfl

@[simp] theorem mem_insert {s : NameSet} {name name' : String} :
    name' ∈ (s.insert name).names ↔ name' = name ∨ name' ∈ s.names := by
  rw [names_insert]
  split
  · next h => exact ⟨Or.inr, fun h' => h'.elim (fun e => e ▸ h) id⟩
  · rw [List.mem_append, List.mem_singleton, or_comm]

theorem mem_foldl_insert {names : List String} {s : NameSet} {name : String} :
    name ∈ (names.foldl insert s).names ↔ name ∈ s.names ∨ name ∈ names := by
  induction names generalizing s with
  | nil => simp
  | cons n ns ih => rw [List.foldl_cons, ih, mem_insert, List.mem_cons]; grind

@[simp] theorem mem_ofList {names : List String} {name : String} :
    name ∈ (ofList names).names ↔ name ∈ names := by
  rw [ofList, mem_foldl_insert]
  simp [empty]

end NameSet

end VersionedTypes
