import VersionedTypes.Json.Format
import VersionedTypes.Proofs.Json.Reading
import VersionedTypes.Proofs.Ordered

/-!
# Printed values are read back

A value without floating point numbers that is printed on one line is read back as it is, if its
brackets are not nested more deeply than the reader allows. So a list or a tagged object that was
printed can be read with a format as soon as the format takes the value.

* `Readable`: how deeply brackets may be nested, and which numbers may occur;
* **`reads_readValue`**: the value that was printed is read;
* `Format.reads_list`, **`Format.reads_tagged`**: lists, and objects whose kind comes first;
* **`Format.parse_eq_ok`**: whole texts;
* `Format.ofJson_list`, `Format.ofJson_names`, `Format.ofJson_table`, `Format.ofJson_tagged`:
  values that were read before;
* `Format.Fills`, **`Format.ofJson_record`**: records whose members come one after the other.
-/

namespace VersionedTypes

namespace Json

variable {v : Json} {rest : List Char} {depth : Nat}

/-! ## Readable values -/

/-- All numbers are natural numbers of at most 64 bits, and brackets are nested within so many
levels. -/
def Readable : (depth : Nat) → Json → Prop
  | _, .null | _, .bool _ | _, .string _ => True
  | _, .number n => ∃ i : Nat, i ≤ Reader.maxSignificand ∧ n = .integer i
  | 0, .array _ | 0, .object _ => False
  | depth + 1, .array items => ∀ v ∈ items, Readable depth v
  | depth + 1, .object members => ∀ m ∈ members, Readable depth m.2

theorem readable_number {n : Number} :
    Readable depth (.number n) ↔ ∃ i : Nat, i ≤ Reader.maxSignificand ∧ n = .integer i := by
  cases depth <;> rfl

theorem compactItems_eq (items : List Json) : compactItems items = items.map compactChars := by
  induction items with
  | nil => rfl
  | cons v vs ih => rw [compactItems, ih, List.map_cons]

theorem compactMembers_eq (members : List (String × Json)) :
    compactMembers members = members.map Reader.memberChars := by
  induction members with
  | nil => rfl
  | cons m ms ih => rw [compactMembers, ih, List.map_cons, Reader.memberChars]

namespace Reader

theorem opens_compactChars (h : Readable depth v) (rest : List Char) :
    Opens (compactChars v ++ rest) := by
  cases v with
  | null => exact ⟨'n', _, rfl, rfl, by decide⟩
  | bool b =>
    cases b
    · exact ⟨'f', _, rfl, rfl, by decide⟩
    · exact ⟨'t', _, rfl, rfl, by decide⟩
  | number n =>
    obtain ⟨i, -, rfl⟩ := readable_number.mp h
    obtain ⟨d, ds, hd, hdigit, -⟩ := exists_toDigits_eq i
    rw [compactChars, toList_text, hd]
    exact ⟨d, ds ++ rest, rfl, isBlank_of_isDigit hdigit, ne_of_isDigit hdigit rfl⟩
  | string s => exact ⟨'"', _, rfl, rfl, by decide⟩
  | array items => exact ⟨'[', _, rfl, rfl, by decide⟩
  | object members => exact ⟨'\x7b', _, rfl, rfl, by decide⟩

/-! ## Reading values -/

/-- Scalars are read whether or not brackets may follow. -/
theorem reads_scalar (h : Readable 0 v) (hr : Delimited rest) (inner : Option (Reader Json)) :
    Reads (readValueOver inner) (compactChars v ++ rest) v rest := by
  cases v with
  | null => exact (reads_token rfl _).bind ((reads_expectWord _ _).map _)
  | bool b => cases b <;> exact (reads_token rfl _).bind ((reads_expectWord _ _).map _)
  | number n =>
    obtain ⟨i, hi, rfl⟩ := readable_number.mp h
    have hnumber := reads_readNumber hi hr
    obtain ⟨d, ds, hd, hdigit, -⟩ := exists_toDigits_eq i
    rw [toList_text, hd] at hnumber
    rw [compactChars, toList_text, hd]
    have hne : ∀ x, isDigit x = false → d ≠ x := fun x => ne_of_isDigit hdigit
    refine (reads_token (isBlank_of_isDigit hdigit) _).bind ?_
    split
    · contradiction
    · next hc => exact absurd (Option.some.inj hc) (hne _ rfl)
    · next hc => exact absurd (Option.some.inj hc) (hne _ rfl)
    · next hc => exact absurd (Option.some.inj hc) (hne _ rfl)
    · next hc =>
      cases hc
      rw [if_neg (hne _ rfl), if_neg (hne _ rfl), if_neg (hne _ rfl), if_pos (Or.inr hdigit)]
      exact hnumber.map _
  | string s => exact (reads_token rfl _).bind ((reads_readString s rest).map _)
  | array items => cases h
  | object members => cases h

theorem takes_collect {m : String × Json} {s : List (String × Json)} {value : Reader Json}
    (h : ∀ rest, Delimited rest → Reads value (compactChars m.2 ++ rest) m.2 rest) :
    Takes (collect value) m s (s ++ [m]) := by
  intro rest hr
  exact (reads_colon _).bind ((h rest hr).bind (reads_pure _ _))

/-- **A printed value is read back.** -/
theorem reads_readValue (h : Readable depth v) (hr : Delimited rest) :
    Reads (readValue depth) (compactChars v ++ rest) v rest := by
  -- by depth: what stands in brackets is read one level further down
  induction depth generalizing v rest with
  | zero => exact reads_scalar h hr none
  | succ depth ih =>
    cases v with
    | array items =>
      have hitems : Reads (readItems (readValue depth) true)
          (separated [','] (items.map compactChars) ++ ']' :: rest) (items.map id) (']' :: rest) :=
        reads_readItems (fun v hv => opens_compactChars (h v hv)) fun v hv _ hr => ih (h v hv) hr
      rw [List.map_id, ← compactItems_eq] at hitems
      rw [compactChars, List.append_assoc]
      refine (reads_token rfl _).bind ((reads_advance _ _).bind ?_)
      exact (hitems.enclosed (reads_endOfList rest)).map _
    | object members =>
      have hmembers : Reads (readMembers (collect (readValue depth)) [])
          (separated [','] (members.map memberChars) ++ '\x7d' :: rest) members
          ('\x7d' :: rest) := by
        refine reads_readMembers (fun done => done) ?_ rest
        rintro done m todo rfl
        exact takes_collect fun _ hr => ih (h m (List.mem_append_right _ List.mem_cons_self)) hr
      rw [← compactMembers_eq] at hmembers
      rw [compactChars, List.append_assoc]
      refine (reads_token rfl _).bind ((reads_advance _ _).bind ?_)
      exact (hmembers.enclosed (reads_endOfObject rest)).map _
    | _ => exact reads_scalar (by exact h) hr _

end Reader

end Json

namespace Format

open Json Json.Reader

variable {α β σ : Type} {options : List (String × α)} {form a : α} {name : String}
  {members ms : List (String × Json)} {rest text : List Char} {depth : Nat}

/-! ## Lists and tagged objects in a text -/

theorem reads_list {item : Format α} {chars : β → List Char} {value : β → α} {xs : List β}
    (hopen : ∀ x ∈ xs, ∀ rest, Opens (chars x ++ rest))
    (hitem : ∀ x ∈ xs, ∀ rest, Delimited rest →
      Reads (item.read depth) (chars x ++ rest) (value x) rest) (rest : List Char) :
    Reads ((list item).read (depth + 1)) ('[' :: (separated [','] (xs.map chars) ++ ']' :: rest))
      (xs.map value) rest := by
  have hitems := (reads_readItems hopen hitem).enclosed (reads_endOfList rest)
  refine (reads_token rfl _).bind ?_
  exact .nested hitems '['

theorem reads_readScalar {convert : Json → Except Problem α} (h : convert (.string name) = .ok a)
    (hr : Delimited rest) : Reads (readScalar convert) (quoted name ++ rest) a rest := by
  have hvalue : Reads (readValue 0) (quoted name ++ rest) (.string name) rest :=
    reads_readValue (v := .string name) trivial hr
  refine (reads_token rfl _).bind (hvalue.bind ?_)
  rw [h]
  exact reads_pure _ _

theorem optionNamed_head (name : String) (a : α) (options : List (String × α)) :
    optionNamed ((name, a) :: options) name = .ok a := by
  simp [optionNamed]

theorem optionNamed_tail {other : String} (h : optionNamed options name = .ok a)
    (hne : other ≠ name) (b : α) : optionNamed ((other, b) :: options) name = .ok a := by
  unfold optionNamed at h ⊢
  rw [List.find?_cons_of_neg (by simpa using hne)]
  split at h
  · exact h
  · cases h

theorem takes_kind (h : optionNamed options name = .ok form) (ms : List (String × Json)) :
    Takes (readTagged options depth) (kindKey, .string name) (none, ms) (some form, ms) := by
  intro rest hr
  rw [readTagged, if_pos rfl]
  exact (reads_colon _).bind ((reads_readScalar h hr).bind (reads_pure _ _))

theorem takes_member {m : String × Json} (hm : m.1 ≠ kindKey) (hv : Readable depth m.2)
    (kind : Option α) (ms : List (String × Json)) :
    Takes (readTagged options depth) m (kind, ms) (kind, ms ++ [m]) := by
  intro rest hr
  rw [readTagged, if_neg hm]
  have hcollect := takes_collect (s := ms) (fun _ hr => reads_readValue hv hr) rest hr
  exact hcollect.bind (reads_pure _ _)

/-- What is known of a tagged object when some of its members are read and the kind came first. -/
def kindFirst (form : α) : List (String × Json) → Option α × List (String × Json)
  | [] => (none, [])
  | _ :: ms => (some form, ms)

/-- **A printed object whose kind comes first** is read in the form of this kind. -/
theorem reads_tagged {options : List (String × (Json → Except Problem α))}
    {form : Json → Except Problem α} (h : optionNamed options name = .ok form)
    (hms : ∀ m ∈ ms, m.1 ≠ kindKey ∧ Readable depth m.2) (ha : form (.object ms) = .ok a)
    (title : String) (rest : List Char) :
    Reads ((tagged title options).read (depth + 1))
      (compactChars (.object ((kindKey, .string name) :: ms)) ++ rest) a rest := by
  have hmembers : Reads (readMembers (readTagged options depth) (none, []))
      (separated [','] (((kindKey, .string name) :: ms).map memberChars) ++ '\x7d' :: rest)
      (some form, ms) ('\x7d' :: rest) := by
    refine reads_readMembers (kindFirst form) ?_ rest
    intro done m todo e
    cases done with
    | nil =>
      cases e
      exact takes_kind h []
    | cons k done =>
      cases e
      obtain ⟨hm, hv⟩ := hms m (List.mem_append_right _ List.mem_cons_self)
      exact takes_member hm hv (some form) done
  rw [← compactMembers_eq] at hmembers
  rw [compactChars, List.append_assoc]
  refine (reads_token rfl _).bind ?_
  have hform := reads_pure (form, Json.object ms) ('\x7d' :: rest)
  refine Reads.bind (.nested (.enclosed (hmembers.bind hform) (reads_endOfObject rest)) _) ?_
  change Reads (Reader.ofExcept (form (.object ms))) _ _ _
  rw [ha]
  exact reads_pure _ _

/-! ## Whole texts -/

/-- **A text that is read to its end** stands for the value that was read. -/
theorem parse_eq_ok {format : Format α} {text : String}
    (h : Reads (format.read maxDepth) text.toList a []) : format.parse text = .ok a := by
  have hend : Reads token [] none [] := fun offset => ⟨offset, rfl⟩
  have hall : Reads format.readAll text.toList a [] := by
    refine h.bind ?_
    exact hend.bind (reads_pure _ _)
  obtain ⟨stop, hr⟩ := hall 0
  rw [parse, hr]

theorem parse_ofList (format : Format α) (cs : List Char) :
    format.parse (String.ofList cs) =
      ((format.readAll ⟨cs, 0⟩).map Prod.fst).mapError fun e =>
        ⟨e.problem, e.place.map fun offset => lineAndColumn 1 0 offset cs⟩ := by
  rw [parse, String.toList_ofList]
  cases format.readAll ⟨cs, 0⟩ <;> rfl

/-! ## Values that were read before -/

theorem ofJson_string (s : String) : string.ofJson (.string s) = .ok s := rfl

theorem ofJson_word32 (n : UInt32) : word32.ofJson (ofNat n.toNat) = .ok n := by
  simp only [word32, scalar, Json.ofNat]
  rw [if_pos ⟨Int.natCast_nonneg _, Int.ofNat_lt.mpr n.toNat_lt_size⟩, Int.toNat_natCast,
    UInt32.ofNat_toNat]

theorem ofJson_list {item : Format α} {toJson : β → Json} {f : β → α}
    (h : ∀ x, item.ofJson (toJson x) = .ok (f x)) (expected : String) (xs : List β) :
    (listAs expected item).ofJson (.array (xs.map toJson)) = .ok (xs.map f) :=
  List.mapM_map.trans (mapM_eq_ok h xs)

theorem ofJson_list_self {item : Format α} {toJson : α → Json}
    (h : ∀ x, item.ofJson (toJson x) = .ok x) (expected : String) (xs : List α) :
    (listAs expected item).ofJson (.array (xs.map toJson)) = .ok xs := by
  rw [ofJson_list h, List.map_id']

theorem ofJson_names (s : NameSet) : names.ofJson (.array (s.names.map .string)) = .ok s := by
  have h := ofJson_list_self ofJson_string "a set" s.names
  exact (congrArg (Except.map NameSet.ofList) h).trans (congrArg Except.ok s.ofList_names)

theorem ofJson_table (m : OrderedMap String) :
    table.ofJson (.object (m.entries.map fun e => (e.1, .string e.2))) = .ok m := by
  have hfold : ∀ (entries : List (String × String)) (m : OrderedMap String),
      (entries.map fun e => (e.1, Json.string e.2)).foldlM
          (fun m e => (string.ofJson e.2).map (m.insert e.1)) m =
        .ok (entries.foldl (fun m e => m.insert e.1 e.2) m) := by
    intro entries
    induction entries with
    | nil => exact fun _ => rfl
    | cons e es ih => exact fun m => ih (m.insert e.1 e.2)
  exact (hfold m.entries OrderedMap.empty).trans (congrArg Except.ok m.ofList_entries)

theorem takeMember_columnOf {columns : List (Column σ)} {required : Bool} {format : Format α}
    {get : σ → Option α} {set : σ → α → σ} {s : σ} {v : Json}
    (hc : columns.find? (·.name == name) = some (columnOf name required format get set))
    (hs : get s = none) (hv : format.ofJson v = .ok a) :
    takeMember columns s (name, v) = .ok (set s a) := by
  simp only [takeMember, hc, columnOf, hs, hv]
  rfl

/-- The members lead from one draft to another: each is new to the draft and goes into its column,
or it has no column. -/
inductive Fills (columns : List (Column σ)) : σ → List (String × Json) → σ → Prop
  | nil {s : σ} : Fills columns s [] s
  | known {α : Type} {name : String} {required : Bool} {format : Format α} {get : σ → Option α}
      {set : σ → α → σ} {s t : σ} {v : Json} {a : α} {ms : List (String × Json)}
      (hc : columns.find? (·.name == name) = some (columnOf name required format get set))
      (hs : get s = none) (hv : format.ofJson v = .ok a) (h : Fills columns (set s a) ms t) :
    Fills columns s ((name, v) :: ms) t
  | unknown {s t : σ} {m : String × Json} {ms : List (String × Json)}
      (hc : columns.find? (·.name == m.1) = none) (h : Fills columns s ms t) :
    Fills columns s (m :: ms) t

theorem Fills.foldlM {columns : List (Column σ)} {s t : σ} (h : Fills columns s ms t) :
    ms.foldlM (takeMember columns) s = .ok t := by
  induction h with
  | nil => rfl
  | known hc hs hv _ ih =>
    rw [List.foldlM_cons, takeMember_columnOf hc hs hv]
    exact ih
  | unknown hc _ ih =>
    rw [List.foldlM_cons, takeMember, hc]
    exact ih

/-- **A record is made of the draft that its members lead to.** -/
theorem ofJson_record {title : String} {columns : List (Column σ)} {blank t : σ}
    {finish : σ → Except Problem α} (h : Fills columns blank ms t) (ha : finish t = .ok a) :
    (record title columns blank finish).ofJson (.object ms) = .ok a := by
  simp only [record, h.foldlM]
  exact ha

theorem splitKind_of_ne {kind : Option α} (h : ∀ m ∈ ms, m.1 ≠ kindKey) :
    splitKind options kind members ms = .ok (kind, members ++ ms) := by
  induction ms generalizing members with
  | nil => rw [splitKind, List.append_nil]
  | cons m ms ih =>
    obtain ⟨hm, hms⟩ := List.forall_mem_cons.mp h
    unfold splitKind
    rw [if_neg hm, ih hms, List.append_assoc]
    rfl

/-- **An object whose kind comes first** is taken in the form of this kind. -/
theorem ofJson_tagged {options : List (String × (Json → Except Problem α))}
    {form : Json → Except Problem α} (h : optionNamed options name = .ok form)
    (hms : ∀ m ∈ ms, m.1 ≠ kindKey) (title : String) :
    (tagged title options).ofJson (.object ((kindKey, .string name) :: ms)) =
      form (.object ms) := by
  have hkind : optionOfJson options (.string name) = .ok form := h
  have hsplit :
      splitKind options none [] ((kindKey, .string name) :: ms) = .ok (some form, ms) := by
    unfold splitKind
    simp only [if_true, hkind]
    exact splitKind_of_ne hms
  simp only [tagged, hsplit]
  rfl

end Format

end VersionedTypes
