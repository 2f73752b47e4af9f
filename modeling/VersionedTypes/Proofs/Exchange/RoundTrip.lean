import VersionedTypes.Exchange.Encoding
import VersionedTypes.Exchange.Formats
import VersionedTypes.Proofs.Json.Values

/-!
# Written declarations are read back

What is written of a declaration is all that its format asks for, so reading it gives the
declaration again. Marks of removal alone are lost: they are written, but no format has a column for
them.

* `unmarked` for the parts of a declaration and for declarations: the same without marks;
* `readable` and `ofJson_toJson` for each part: it is written as a readable value, and the format
  takes this value back;
* `Declaration.toJson`, `Declaration.toJson?_eq`: the written form, if no builtin is included;
* **`Declaration.reads_toJson`**: a printed declaration is read;
* **`parse_print`**: so is a printed list of declarations.
-/

namespace VersionedTypes

open Json Json.Reader Format

/-! ## No marks -/

/-- The type without marks; builtins have none. -/
def SchemaType.unmarked : SchemaType → SchemaType
  | .builtin b => .builtin b
  | .user t => .user t.unmarked

/-- The edit that adds its variants without marks. -/
def SumEdit.unmarked (e : SumEdit) : SumEdit :=
  { e with added := e.added.map ProductType.unmarked }

/-- The permutation that includes types and adds variants without marks. -/
def Permutation.unmarked (p : Permutation) : Permutation :=
  { p with included := p.included.map SchemaType.unmarked,
           sumEdits := p.sumEdits.map SumEdit.unmarked }

/-- The declaration without marks of removal. -/
def Declaration.unmarked : Declaration → Declaration
  | .domain d => .domain d.unmarked
  | .permutation p => .permutation p.unmarked
  | .transform r => .transform r

/-! ## The written form -/

/-- The types that a permutation includes, builtins aside. -/
def Permutation.userTypes (p : Permutation) : List UserType := p.included.filterMap SchemaType.user?

/-- The members of a permutation, builtins aside. -/
def Permutation.members (p : Permutation) : List (String × Json) :=
  [("tag", .string p.tag), ("permutes_domain", .string p.base),
    ("excluded_types", .array (p.excluded.names.map .string)),
    ("included_types", .array (p.userTypes.map UserType.toJson)),
    ("permuted_sums", .array (p.sumEdits.map SumEdit.toJson)), ("meta", p.origin.toJson)]

/-- The written form of a declaration, builtins that it includes aside. -/
def Declaration.toJson : Declaration → Json
  | .domain d => .object ((kindKey, .string "domain") :: d.members)
  | .permutation p => .object ((kindKey, .string "permutation") :: p.members)
  | .transform r => .object ((kindKey, .string "transform") :: r.members)

theorem Permutation.included_eq {p : Permutation} (h : ∀ b, .builtin b ∉ p.included) :
    p.included = p.userTypes.map .user := by
  unfold userTypes
  generalize p.included = ts at h ⊢
  induction ts with
  | nil => rfl
  | cons t ts ih =>
    obtain ⟨ht, hts⟩ := forall_and.mp fun b => not_or.mp (mt List.mem_cons.mpr (h b))
    cases t with
    | builtin b => exact absurd rfl (ht b)
    | user t => exact congrArg (.user t :: ·) (ih hts)

theorem Permutation.members?_eq {p : Permutation} (h : ∀ b, .builtin b ∉ p.included) :
    p.members? = .ok p.members := by
  have hincluded : p.included.mapM SchemaType.toJson? = .ok (p.userTypes.map UserType.toJson) := by
    rw [included_eq h]
    exact List.mapM_map.trans (mapM_eq_ok (fun _ => rfl) p.userTypes)
  rw [members?, hincluded]
  rfl

/-- **Without builtins a declaration has a written form.** -/
theorem Declaration.toJson?_eq {c : Declaration}
    (h : ∀ p, c = .permutation p → ∀ b, .builtin b ∉ p.included) : c.toJson? = .ok c.toJson := by
  cases c with
  | domain d => rfl
  | permutation p =>
    rw [toJson?, Permutation.members?_eq (h p rfl)]
    rfl
  | transform r => rfl

/-! ## Written values are readable -/

section Readable

variable {n : Nat}

theorem readable_word32 (x : UInt32) : Readable n (ofNat x.toNat) :=
  readable_number.mpr ⟨x.toNat, Nat.le_trans (Nat.le_of_lt x.toNat_lt) (by decide), rfl⟩

theorem readable_string (s : String) : Readable n (.string s) := by
  cases n <;> trivial

theorem readable_bool (b : Bool) : Readable n (.bool b) := by
  cases n <;> trivial

theorem readable_list {α : Type} {toJson : α → Json} (h : ∀ x, Readable n (toJson x))
    (xs : List α) : Readable (n + 1) (.array (xs.map toJson)) := by
  intro v hv
  obtain ⟨x, -, rfl⟩ := List.mem_map.mp hv
  exact h x

theorem readable_table (m : OrderedMap String) : Readable (n + 1) m.toJson := by
  intro e he
  obtain ⟨e, -, rfl⟩ := List.mem_map.mp he
  exact readable_string e.2

/-- The members of an object besides its kind, with readable values. -/
def Body (n : Nat) (ms : List (String × Json)) : Prop :=
  ∀ m ∈ ms, m.1 ≠ kindKey ∧ Readable n m.2

theorem body_nil : Body n [] := fun _ h => absurd h List.not_mem_nil

theorem Body.cons {name : String} {v : Json} {ms : List (String × Json)} (hname : name ≠ kindKey)
    (hv : Readable n v) (h : Body n ms) : Body n ((name, v) :: ms) :=
  List.forall_mem_cons.mpr ⟨⟨hname, hv⟩, h⟩

theorem Body.readable {ms : List (String × Json)} (h : Body n ms) :
    Readable (n + 1) (.object ms) := fun m hm => (h m hm).2

theorem Position.readable (p : Position) : Readable (n + 1) p.toJson :=
  Body.readable <|
  .cons (by decide) (readable_word32 p.line) <|
  .cons (by decide) (readable_word32 p.column) <|
  .cons (by decide) (readable_word32 p.length) body_nil

theorem Origin.readable (o : Origin) : Readable (n + 2) o.toJson := by
  refine Body.readable (.cons (by decide) o.position.readable ?_)
  split
  · exact body_nil
  · exact .cons (by decide) (readable_table o.annotations) body_nil

theorem TypeRef.readable (r : TypeRef) : Readable (n + 3) r.toJson :=
  Body.readable <|
  .cons (by decide) (readable_string r.typeName) <|
  .cons (by decide) r.origin.readable body_nil

theorem Field.readable (f : Field) : Readable (n + 4) f.toJson :=
  Body.readable <|
  .cons (by decide) (readable_string f.name) <|
  .cons (by decide) f.type.readable <|
  .cons (by decide) f.origin.readable body_nil

theorem ProductType.body (p : ProductType) : Body (n + 5) p.members :=
  .cons (by decide) (readable_string p.tag) <|
  .cons (by decide) (readable_list Field.readable p.fields) <|
  .cons (by decide) (readable_string p.encoding.name) <|
  .cons (by decide) p.origin.readable <|
  .cons (by decide) (readable_bool p.removed) body_nil

theorem SumType.body (s : SumType) : Body (n + 7) s.members :=
  .cons (by decide) (readable_string s.tag) <|
  .cons (by decide) (readable_list (fun p => p.body.readable) s.variants) <|
  .cons (by decide) s.origin.readable <|
  .cons (by decide) (readable_bool s.removed) body_nil

theorem UserType.readable (t : UserType) : Readable (n + 8) t.toJson := by
  have hkind : Readable (n + 7) (.string t.kind.name) := readable_string _
  cases t with
  | product p => exact List.forall_mem_cons.mpr ⟨hkind, fun m hm => (p.body m hm).2⟩
  | sum s => exact List.forall_mem_cons.mpr ⟨hkind, fun m hm => (s.body m hm).2⟩

theorem Domain.body (d : Domain) : Body (n + 9) d.members :=
  .cons (by decide) (readable_string d.tag) <|
  .cons (by decide) (readable_list UserType.readable d.userTypes) <|
  .cons (by decide) d.origin.readable body_nil

theorem SumEdit.readable (e : SumEdit) : Readable (n + 8) e.toJson :=
  Body.readable <|
  .cons (by decide) (readable_string e.tag) <|
  .cons (by decide) (readable_list readable_string e.removed) <|
  .cons (by decide) (readable_list (fun p => p.body.readable) e.added) <|
  .cons (by decide) e.origin.readable body_nil

theorem Permutation.body (p : Permutation) : Body (n + 9) p.members :=
  .cons (by decide) (readable_string p.tag) <|
  .cons (by decide) (readable_string p.base) <|
  .cons (by decide) (readable_list readable_string p.excluded.names) <|
  .cons (by decide) (readable_list UserType.readable p.userTypes) <|
  .cons (by decide) (readable_list SumEdit.readable p.sumEdits) <|
  .cons (by decide) p.origin.readable body_nil

theorem TransformRequest.body (r : TransformRequest) : Body (n + 9) r.members :=
  .cons (by decide) (readable_string r.name) <|
  .cons (by decide) (readable_string r.source) <|
  .cons (by decide) (readable_string r.destination) <|
  .cons (by decide) r.origin.readable body_nil

end Readable

/-! ## Written values are taken back -/

theorem Position.ofJson_toJson (p : Position) : Position.format.ofJson p.toJson = .ok p :=
  ofJson_record
    (.known rfl rfl (ofJson_word32 p.line) <|
     .known rfl rfl (ofJson_word32 p.column) <|
     .known rfl rfl (ofJson_word32 p.length) .nil) rfl

theorem Origin.ofJson_toJson (o : Origin) : Origin.format.ofJson o.toJson = .ok o := by
  unfold Origin.toJson
  split
  · next h =>
    obtain ⟨position, ⟨entries, _⟩⟩ := o
    obtain rfl : entries = [] := List.isEmpty_iff.mp h
    exact ofJson_record (.known rfl rfl position.ofJson_toJson .nil) rfl
  · exact ofJson_record
      (.known rfl rfl o.position.ofJson_toJson <|
       .known rfl rfl (ofJson_table o.annotations) .nil) rfl

theorem TypeRef.ofJson_toJson (r : TypeRef) : TypeRef.format.ofJson r.toJson = .ok r :=
  ofJson_record
    (.known rfl rfl (ofJson_string r.typeName) <|
     .known rfl rfl r.origin.ofJson_toJson .nil) rfl

theorem Field.ofJson_toJson (f : Field) : Field.format.ofJson f.toJson = .ok f :=
  ofJson_record
    (.known rfl rfl (ofJson_string f.name) <|
     .known rfl rfl f.type.ofJson_toJson <|
     .known rfl rfl f.origin.ofJson_toJson .nil) rfl

theorem Encoding.ofJson_toJson (e : Encoding) : Encoding.format.ofJson e.toJson = .ok e := by
  cases e <;> rfl

/-- The mark of a product has no column. -/
theorem ProductType.ofJson_toJson (p : ProductType) :
    ProductType.format.ofJson p.toJson = .ok p.unmarked :=
  ofJson_record
    (.known rfl rfl (ofJson_string p.tag) <|
     .known rfl rfl (ofJson_list_self Field.ofJson_toJson "a sequence" p.fields) <|
     .known rfl rfl p.encoding.ofJson_toJson <|
     .known rfl rfl p.origin.ofJson_toJson <|
     .unknown rfl .nil) rfl

theorem SumType.ofJson_members (s : SumType) :
    SumType.format.ofJson (.object s.members) = .ok s.unmarked :=
  ofJson_record
    (.known rfl rfl (ofJson_string s.tag) <|
     .known rfl rfl (ofJson_list ProductType.ofJson_toJson "a sequence" s.variants) <|
     .known rfl rfl s.origin.ofJson_toJson <|
     .unknown rfl .nil) rfl

theorem UserType.ofJson_toJson (t : UserType) :
    UserType.format.ofJson t.toJson = .ok t.unmarked := by
  cases t with
  | product p =>
    refine (ofJson_tagged rfl (fun m hm => (p.body (n := 0) m hm).1) "Type").trans ?_
    exact congrArg (Except.map UserType.product) p.ofJson_toJson
  | sum s =>
    refine (ofJson_tagged rfl (fun m hm => (s.body (n := 0) m hm).1) "Type").trans ?_
    exact congrArg (Except.map UserType.sum) s.ofJson_members

theorem Domain.ofJson_members (d : Domain) :
    Domain.format.ofJson (.object d.members) = .ok d.unmarked :=
  ofJson_record
    (.known rfl rfl (ofJson_string d.tag) <|
     .known rfl rfl (ofJson_list UserType.ofJson_toJson "a sequence" d.userTypes) <|
     .known rfl rfl d.origin.ofJson_toJson .nil) rfl

theorem SumEdit.ofJson_toJson (e : SumEdit) : SumEdit.format.ofJson e.toJson = .ok e.unmarked :=
  ofJson_record
    (.known rfl rfl (ofJson_string e.tag) <|
     .known rfl rfl (ofJson_list_self ofJson_string "a sequence" e.removed) <|
     .known rfl rfl (ofJson_list ProductType.ofJson_toJson "a sequence" e.added) <|
     .known rfl rfl e.origin.ofJson_toJson .nil) rfl

theorem Permutation.ofJson_members {p : Permutation} (h : ∀ b, .builtin b ∉ p.included) :
    Permutation.format.ofJson (.object p.members) = .ok p.unmarked := by
  have hincluded :
      (p.userTypes.map UserType.unmarked).map .user = p.included.map SchemaType.unmarked := by
    rw [included_eq h, List.map_map, List.map_map]
    rfl
  rw [unmarked, ← hincluded]
  exact ofJson_record
    (.known rfl rfl (ofJson_string p.tag) <|
     .known rfl rfl (ofJson_string p.base) <|
     .known rfl rfl (ofJson_names p.excluded) <|
     .known rfl rfl (ofJson_list UserType.ofJson_toJson "a sequence" p.userTypes) <|
     .known rfl rfl (ofJson_list SumEdit.ofJson_toJson "a sequence" p.sumEdits) <|
     .known rfl rfl p.origin.ofJson_toJson .nil) rfl

theorem TransformRequest.ofJson_members (r : TransformRequest) :
    TransformRequest.format.ofJson (.object r.members) = .ok r :=
  ofJson_record
    (.known rfl rfl (ofJson_string r.name) <|
     .known rfl rfl (ofJson_string r.source) <|
     .known rfl rfl (ofJson_string r.destination) <|
     .known rfl rfl r.origin.ofJson_toJson .nil) rfl

/-! ## Declaration lists -/

namespace Declaration

variable {c : Declaration} {ds : List Declaration}

theorem opens_toJson (c : Declaration) (rest : List Char) :
    Opens (compactChars c.toJson ++ rest) := by
  cases c <;> exact ⟨'\x7b', _, rfl, rfl, by decide⟩

/-- **A printed declaration is read.** -/
theorem reads_toJson {n : Nat} (h : ∀ p, c = permutation p → ∀ b, .builtin b ∉ p.included)
    (rest : List Char) :
    Reads (format.read (n + 10)) (compactChars c.toJson ++ rest) c.unmarked rest := by
  cases c with
  | domain d =>
    apply reads_tagged
    · exact optionNamed_head _ _ _
    · exact d.body
    · exact congrArg (Except.map domain) d.ofJson_members
  | permutation p =>
    apply reads_tagged
    · exact optionNamed_tail (optionNamed_head _ _ _) (by decide) _
    · exact p.body
    · exact congrArg (Except.map permutation) (Permutation.ofJson_members (h p rfl))
  | transform r =>
    apply reads_tagged
    · exact optionNamed_tail (optionNamed_tail (optionNamed_head _ _ _) (by decide) _) (by decide) _
    · exact r.body
    · exact congrArg (Except.map transform) r.ofJson_members

/-- **A printed list of declarations is read back**, whatever its texts, positions and annotations
are: all that is lost are marks of removal. -/
theorem parse_print (h : ∀ p, permutation p ∈ ds → ∀ b, .builtin b ∉ p.included) :
    ∃ text, print ds = .ok text ∧ parse text = .ok (ds.map unmarked) := by
  have hc : ∀ c ∈ ds, ∀ p, c = permutation p → ∀ b, .builtin b ∉ p.included := by
    rintro _ hp p rfl
    exact h p hp
  have hjson : ds.mapM toJson? = .ok (ds.map toJson) :=
    mapM_eq_ok_of_mem fun c hm => toJson?_eq (hc c hm)
  refine ⟨(Json.array (ds.map toJson)).compact, by rw [print, hjson]; rfl, parse_eq_ok ?_⟩
  rw [compact, String.toList_ofList, compactChars, compactItems_eq, List.map_map]
  exact reads_list (fun c _ => c.opens_toJson) (fun c hm rest _ => reads_toJson (hc c hm) rest) []

/-- Marked types and variants, annotations with quotes, controls and letters of any script, and a
position at the end of its range. -/
theorem parse_print_marked :
    let o : Origin := { position := ⟨4294967295, 0, 7⟩,
                        annotations := .ofList [("note", "\"\\\n\x01é"), ("kind", "")] }
    let v : ProductType := { tag := "v", encoding := .positional, origin := o, removed := true }
    let ds := [
      domain { tag := "d", userTypes := [.sum { tag := "s", variants := [v] }], origin := o },
      permutation { tag := "e", base := "d", excluded := .ofList ["b", "a"],
                    included := [.user (.product v)],
                    sumEdits := [{ tag := "s", removed := ["v", "v"], added := [v] }] },
      transform ⟨"up", "d", "e", o⟩]
    (∀ p, permutation p ∈ ds → ∀ b, .builtin b ∉ p.included) ∧
      ∃ text, print ds = .ok text ∧ parse text = .ok (ds.map unmarked) := by
  intro o v ds
  have h : ∀ p, permutation p ∈ ds → ∀ b, .builtin b ∉ p.included := by
    intro p hp b
    obtain rfl : p = _ := by simpa [ds] using hp
    simp
  exact ⟨h, parse_print h⟩

end Declaration

end VersionedTypes
